import EasyTier.Peers.NodeInvariants

/-! # What a secure node writes to its connections

A packet this node sends to another peer is encrypted in one of three places: by the relay map, by a
flush of the packets that waited for a session, or by the filter of a direct connection with the
destination. Until then it stays on a way that leads to one of them.
-/

namespace EasyTier.Peers

open Data Packet Tunnel Semantics SessionTable PeerManagerHeader

/-- The payload of the packet is sealed under a session of this node with the destination. A packet
that comes back to the receive loop is compressed again, after it was sealed. -/
structure SealedFor (config : NodeConfig) (table : SessionTable) (source packet : ZCPacket) :
    Prop where
  flagged : packet.header.isEncrypted = true
  payload : ∃ rootKey sealed, (source.header.toPeerId, rootKey) ∈ table.agreed ∧
    SealedUnder config.primitives rootKey
      (PeerSession.dirForSender config.myPeerId source.header.toPeerId) source.payload sealed ∧
    (packet.payload = sealed ∨ packet.header.isCompressed = true ∧
      ∃ text, config.codec.compress sealed = some text ∧ packet.payload = text ++ [compressorTail])

/-- This node sends the packet to another peer, not encrypted yet, and it is not a handshake, Ping
or Pong packet. -/
structure Outbound (config : NodeConfig) (item : Item) : Prop where
  originated : item.entered = .originated
  own : item.source.header.fromPeerId = config.myPeerId
  elsewhere : item.source.header.toPeerId ≠ config.myPeerId
  clear : item.source.header.isEncrypted = false
  notSkipped : shouldSkipEncrypt item.source.header = false

/-- The places from which a packet still gets to an encryption for its destination. -/
def Place.Encrypts (dstPeerId : PeerId) : Place → Prop
  | .relay _ | .pending _ | .flushing _ _ => True
  | .peer _ peerId => peerId = dstPeerId
  | _ => False

/-- The places where a packet may be readable: in the node itself, or on a connection without a
session. -/
def Place.Exempt : Place → Prop
  | .delivered => True
  | .wire conn => conn.noise = false
  | _ => False

/-- The packet is sealed, or will be before it leaves. -/
def Guarded (config : NodeConfig) (table : SessionTable) (item : Item) : Prop :=
  SealedFor config table item.source item.packet ∨
    (item.packet = item.source ∧ item.place.Encrypts item.source.header.toPeerId) ∨
    item.place.Exempt

variable {config : NodeConfig} {source packet : ZCPacket} {item : Item} {table : SessionTable}

theorem SealedFor.evolves {before after : SessionTable}
    (sealedFor : SealedFor config before source packet)
    (evolves : Evolves before after) : SealedFor config after source packet := by
  obtain ⟨rootKey, sealed, agreed, under, shape⟩ := sealedFor.payload
  exact ⟨sealedFor.flagged, rootKey, sealed, evolves.agreed agreed, under, shape⟩

theorem Guarded.at_place {place : Place} (guarded : Guarded config table item)
    (here : item.place = place) :
    SealedFor config table item.source item.packet ∨
      (item.packet = item.source ∧ place.Encrypts item.source.header.toPeerId) ∨ place.Exempt := by
  subst here
  exact guarded

theorem Guarded.evolves {before after : SessionTable}
    (guarded : Guarded config before item) (evolves : Evolves before after) :
    Guarded config after item :=
  guarded.imp_left fun sealedFor => sealedFor.evolves evolves

/-- A copy with the same payload, encrypted and compressed flags is sealed as well. -/
theorem SealedFor.copy {copy : ZCPacket}
    (sealedFor : SealedFor config table source packet) (payload : copy.payload = packet.payload)
    (encrypted : copy.header.isEncrypted = packet.header.isEncrypted)
    (compressed : copy.header.isCompressed = packet.header.isCompressed) :
    SealedFor config table source copy := by
  obtain ⟨rootKey, sealed, agreed, under, shape⟩ := sealedFor.payload
  refine ⟨encrypted.trans sealedFor.flagged, rootKey, sealed, agreed, under, ?_⟩
  rw [payload, compressed]
  exact shape

/-- What a session with the destination encrypts is sealed afterwards, if it was not before. -/
theorem sealedFor_of_encryptPayload
    (sound : table.Sound config.primitives) {ref : SessionRef} {session : PeerSession}
    (found : table.sessions[ref]? = some session) {sealed : ZCPacket}
    (clear : source.header.isEncrypted = false)
    (before : SealedFor config table source packet ∨
      (packet = source ∧ session.peerId = source.header.toPeerId)) {nowMs : Nat}
    (seals : (session.encryptPayload config.primitives config.myPeerId packet.header.toPeerId packet
      nowMs).1 = .ok sealed) : SealedFor config table source sealed := by
  have member : session ∈ table.sessions := List.mem_of_getElem? found
  unfold PeerSession.encryptPayload at seals
  split at seals
  · cases seals
  rcases (sound.derived session member).sealed_of_encryptPayload (sound.aead session member).1
      seals with ⟨flagged, rfl⟩ | ⟨notYet, header, under⟩ <;>
    rcases before with already | ⟨rfl, isWith⟩
  · exact already
  · cases clear.symm.trans flagged
  · cases already.flagged.symm.trans notYet
  · have agreed := sound.agreed session member
    rw [isWith] at agreed
    refine ⟨?_, session.rootKey, sealed.payload, agreed, under, .inl rfl⟩
    rw [header, isEncrypted_setEncrypted]

/-- Compressing a sealed packet keeps its ciphertext. -/
theorem SealedFor.compress
    {compressed : ZCPacket} (sealedFor : SealedFor config table source packet)
    (done : compress config.codec config.compressAlgo packet = some compressed) :
    SealedFor config table source compressed := by
  rcases compress_frame done with rfl | ⟨notYet, header, text, packed, payload⟩
  · exact sealedFor
  · obtain ⟨rootKey, sealed, agreed, under, shape⟩ := sealedFor.payload
    rcases shape with same | ⟨already, _⟩
    · refine ⟨?_, rootKey, sealed, agreed, under, .inr ⟨?_, text, ?_, payload⟩⟩
      · rw [header, isEncrypted_setCompressed, sealedFor.flagged]
      · rw [header, isCompressed_setCompressed]
      · rw [← same, packed]
    · rw [notYet] at already
      cases already

section

variable (secure : config.secureModeEnabled = true)
include secure

/-- Forwarding leaves what is sealed sealed. -/
theorem SealedFor.forwardPacket
    {env : StepEnv} {forwarded : ZCPacket} (sealedFor : SealedFor config table source packet)
    (forwards : config.forwardPacket env packet = some forwarded) :
    SealedFor config table source forwarded := by
  obtain ⟨counted, preserves, shape⟩ := forwardPacket_cases forwards
  have stillSealed : SealedFor config table source counted :=
    sealedFor.copy preserves.payload preserves.isEncrypted preserves.isCompressed
  rcases shape with rfl | ⟨_, rfl⟩
  · exact stillSealed
  unfold NodeConfig.tryCompressAndEncrypt
  split
  · exact stillSealed
  · rename_i compressed done
    rw [secure, if_pos rfl]
    exact stillSealed.compress done

/-- A filter with a session seals what this node sends to its peer. -/
theorem guarded_of_beforeSend
    {state : NodeState} (consistent : Consistent config state) {conn : Conn}
    (member : conn ∈ state.conns) (own : conn.Own config) (outbound : Outbound config item)
    (before : SealedFor config state.table item.source item.packet ∨
      (item.packet = item.source ∧ conn.peerId = item.source.header.toPeerId))
    {nowMs : Nat}
    (passes : (conn.filter.beforeSend config.primitives state.table item.packet nowMs).1 =
      some packet) :
    SealedFor config state.table item.source packet ∨ conn.noise = false := by
  have bound := consistent.bound conn member
  unfold PeerSessionTunnelFilter.beforeSend at passes
  split at passes
  · rename_i skips
    cases passes
    refine before.imp_right ?_
    rintro ⟨same, toDst⟩
    rw [same] at skips
    unfold Conn.noise
    cases holds : conn.filter.session with
    | none => rfl
    | some ref =>
      -- with a session the filter would have encrypted the packet
      have encrypts := conn.filter.encryptsWith_of_toPeer (own.enabled.trans secure)
        outbound.notSkipped ((bound.peerId ref holds).trans (congrArg some toDst))
        (outbound.own.trans own.myPeerId.symm)
      rw [skips, holds] at encrypts
      cases encrypts
  · rename_i ref encrypts
    obtain ⟨_, holds⟩ := PeerSessionTunnelFilter.encryptsWith_cases encrypts
    obtain ⟨session, found, isWith⟩ := bound.session ref holds
    rw [found] at passes
    dsimp only at passes
    left
    have before : SealedFor config state.table item.source item.packet ∨
        (item.packet = item.source ∧ session.peerId = item.source.header.toPeerId) :=
      before.imp_right fun unsealed => ⟨unsealed.1, isWith.trans unsealed.2⟩
    rw [own.myPeerId] at passes
    generalize sent : (session.encryptPayload config.primitives config.myPeerId
      item.packet.header.toPeerId item.packet nowMs).1 = result at passes
    cases result with
    | error => cases passes
    | ok sealed =>
      cases passes
      exact sealedFor_of_encryptPayload consistent.table found outbound.clear before sent

/-- A move keeps what this node sends to other peers guarded. -/
theorem Guarded.moves {state : NodeState} (consistent : Consistent config state)
    (own : ∀ conn ∈ state.conns, conn.Own config) (member : item ∈ state.items)
    (outbound : Outbound config item) (guarded : Guarded config state.table item) {env : StepEnv}
    {next : Item} (moves : Moves config state env item next) : Guarded config state.table next := by
  cases moves with
  | stays => exact guarded
  | forwarded at_inbox _ forwards =>
    rcases guarded.at_place at_inbox with sealedFor | ⟨_, ⟨⟩⟩ | exempt
    · exact .inl (sealedFor.forwardPacket secure forwards)
    · cases exempt
  | delivered => exact .inr (.inr trivial)
  | readdressed at_inbox =>
    rcases guarded.at_place at_inbox with sealedFor | ⟨_, ⟨⟩⟩ | exempt
    · exact .inl (sealedFor.copy rfl rfl rfl)
    · cases exempt
  | passed _ insecure =>
    rw [secure] at insecure
    cases insecure
  | buffered at_relay =>
    rcases guarded.at_place at_relay with sealedFor | ⟨same, _⟩ | exempt
    · exact .inl sealedFor
    · exact .inr (.inl ⟨same, trivial⟩)
    · cases exempt
  | encrypted uses found seals =>
    left
    have isWith := uses.isWith consistent member
    refine sealedFor_of_encryptPayload consistent.table found outbound.clear ?_ seals
    rcases guarded with sealedFor | ⟨same, _⟩ | exempt
    · exact .inl sealedFor
    · refine .inr ⟨same, ?_⟩
      obtain ⟨stored, present, ofPeer⟩ := isWith
      rw [found, Option.some.injEq] at present
      subst present
      rw [ofPeer, same]
      rfl
    · rcases uses with ⟨place, _⟩ | place <;> rw [place] at exempt <;> cases exempt
  | hopped leaves =>
    rcases leaves with ⟨_, place⟩ | place
    all_goals
      rcases guarded.at_place place with sealedFor | ⟨_, ⟨⟩⟩ | exempt
      · exact .inl sealedFor
      · cases exempt
  | @written realm peerId conn packet at_peer present toPeer passes =>
    have unsealed : SealedFor config state.table item.source item.packet ∨
        (item.packet = item.source ∧ conn.peerId = item.source.header.toPeerId) := by
      rcases guarded.at_place at_peer with sealedFor | ⟨same, encrypts⟩ | exempt
      · exact .inl sealedFor
      · exact .inr ⟨same, toPeer.trans encrypts⟩
      · cases exempt
    rcases guarded_of_beforeSend secure consistent present (own _ present) outbound unsealed
      passes with sealedFor | noSession
    · have stamped := preserves_apply env.stamp packet
      exact .inl (sealedFor.copy stamped.payload stamped.isEncrypted stamped.isCompressed)
    · exact .inr (.inr noSession)

/-- One step keeps what this node sends to other peers guarded. -/
theorem guarded_step
    {before after : NodeState} {event : NodeEvent} (consistent : Consistent config before)
    (own : ∀ conn ∈ before.conns, conn.Own config) (evolves : Evolves before.table after.table)
    (guarded : ∀ item ∈ before.items, Outbound config item → Guarded config before.table item)
    (transition : before.step? config event = some after)
    (member : item ∈ after.items) (outbound : Outbound config item) :
    Guarded config after.table item := by
  refine Guarded.evolves ?_ evolves
  cases (step_effect transition).items item member with
  | kept old => exact guarded item old outbound
  | flushed old waits =>
    have waiting := guarded _ old ⟨outbound.originated, outbound.own, outbound.elsewhere,
      outbound.clear, outbound.notSkipped⟩
    rcases waiting.at_place waits with sealedFor | ⟨same, _⟩ | exempt
    · exact .inl sealedFor
    · exact .inr (.inl ⟨same, trivial⟩)
    · cases exempt
  | originated leaves =>
    refine .inr (.inl ⟨rfl, ?_⟩)
    rcases sendMsgInternal_cases leaves with ⟨_, rfl⟩ | ⟨_, rfl⟩ | ⟨_, forMe⟩
    · trivial
    · rfl
    · exact absurd forMe outbound.elsewhere
  | arrived => cases outbound.originated
  | @moved index env earlier _ found moves =>
    obtain ⟨entered, source⟩ := moves.history
    have earlierOutbound : Outbound config earlier := by
      obtain ⟨originated, isOwn, elsewhere, clear, notSkipped⟩ := outbound
      rw [source] at isOwn elsewhere clear notSkipped
      exact ⟨entered ▸ originated, isOwn, elsewhere, clear, notSkipped⟩
    have member := List.mem_of_getElem? found
    exact (guarded earlier member earlierOutbound).moves secure consistent own member
      earlierOutbound moves

end

/-- Whatever this node writes to a connection with a session, of what it sends to other peers, is
sealed under a session with the destination. -/
theorem written_sealed_for_destination {config : NodeConfig}
    (secure : config.secureModeEnabled = true) (aead : IsAead config.encryptionAlgorithm)
    {state : NodeState}
    (reached : (nodeSystem config).ReachableUnder (fun _ event => event.AeadOnly) state)
    {item : Item} (member : item ∈ state.items) {conn : Conn} (written : item.place = .wire conn)
    (noise : conn.noise = true) (originated : item.entered = .originated)
    (own : item.source.header.fromPeerId = config.myPeerId)
    (elsewhere : item.source.header.toPeerId ≠ config.myPeerId)
    (clear : item.source.header.isEncrypted = false)
    (notSkipped : shouldSkipEncrypt item.source.header = false) :
    SealedFor config state.table item.source item.packet := by
  have invariant : Consistent config state ∧
      ∀ item ∈ state.items, Outbound config item → Guarded config state.table item := by
    refine reached.invariant_reachable (motive := fun state => Consistent config state ∧
      ∀ item ∈ state.items, Outbound config item → Guarded config state.table item) ?_ ?_
    · rintro state rfl
      exact ⟨Consistent.initial config, fun _ none => absurd none List.not_mem_nil⟩
    · rintro before event after earlier ⟨consistent, guarded⟩ aeadOnly transition
      obtain ⟨next, evolves⟩ := consistent.step aead aeadOnly transition
      exact ⟨next, fun item => guarded_step secure consistent (conns_own earlier) evolves guarded
        transition⟩
  have guarded := invariant.2 item member ⟨originated, own, elsewhere, clear, notSkipped⟩
  rcases guarded.at_place written with sealedFor | ⟨_, ⟨⟩⟩ | exempt
  · exact sealedFor
  · cases noise.symm.trans exempt

private def letter : ZCPacket where
  header :=
    { fromPeerId := 1
      toPeerId := 3
      packetType := PacketType.data.code
      flags := 0
      forwardCounter := 0
      reserved := 0
      len := 1 }
  payload := [42]

/-- A packet for peer 3 waits in the relay map until there is a session with peer 3, and then leaves
through peer 2. -/
private def relayedRun : List NodeEvent :=
  [.respond ⟨"net", 2⟩ none "aes-gcm" none 7 0, .connect .own 2 (some 0),
    .originate letter (.reading (.through 2)), .step 0 (.reading (.through 2)),
    .respond ⟨"net", 3⟩ none "aes-gcm" none 8 0, .flush 3 1,
    .step 0 (.reading (.through 2)), .step 0 (.reading (.through 2)),
    .step 0 (.reading (.through 2))]

private def toPeerTwo : Conn where
  realm := .own
  peerId := 2
  filter := { enabled := true, myPeerId := 1, peerId := some 2, session := some 0 }

theorem relayed_letter_sealed :
    ∃ state, (nodeSystem (.secureNode 1)).Reachable state ∧
      ∃ item ∈ state.items, item.place = .wire toPeerTwo ∧ item.source = letter ∧
        SealedFor (.secureNode 1) state.table letter item.packet := by
  obtain ⟨state, reached, seen⟩ : ∃ state, (nodeSystem (.secureNode 1)).ReachableUnder
      (fun _ event => event.AeadOnly) state ∧ _ :=
    System.exists_reachableUnder .initial relayedRun
      (fun state => state.items.map (fun item => (item.place, item.entered, item.source)) =
        [(.wire toPeerTwo, .originated, letter)]) rfl (by decide +kernel) fun _ _ => id
  obtain ⟨item, member, isLetter⟩ := List.mem_map.mp
    (show (Place.wire toPeerTwo, Entered.originated, letter) ∈
      state.items.map fun item => (item.place, item.entered, item.source) by simp [seen])
  simp only [Prod.mk.injEq] at isLetter
  obtain ⟨written, originated, source⟩ := isLetter
  have sealedFor : SealedFor (.secureNode 1) state.table item.source item.packet :=
    written_sealed_for_destination rfl (by decide) reached member written rfl originated
      (by rw [source]; rfl) (by rw [source]; decide) (by rw [source]; decide)
      (by rw [source]; decide)
  rw [source] at sealedFor
  exact ⟨state, reached.reachable, item, member, written, source, sealedFor⟩

end EasyTier.Peers
