import EasyTier.Peers.SessionTable

/-! # The filters on a connection

Every packet of a connection passes its session filter and its liveness filter. The session filter
encrypts and decrypts what the two ends of the connection send to each other and lets everything
else pass: handshake, Ping and Pong packets, and packets whose sender or receiver is a third peer.
The statistics filter only counts and is left out.
-/

namespace EasyTier.Peers

open Data Packet Tunnel

/-- `should_skip_encrypt`. -/
def shouldSkipEncrypt (header : PeerManagerHeader) : Bool :=
  header.hasType .noiseHandshakeMsg1 || header.hasType .noiseHandshakeMsg2 ||
    header.hasType .noiseHandshakeMsg3 || header.hasType .relayHandshake ||
    header.hasType .relayHandshakeAck || header.hasType .ping || header.hasType .pong

structure PeerSessionTunnelFilter where
  enabled : Bool
  myPeerId : PeerId
  peerId : Option PeerId
  session : Option SessionRef
  deriving DecidableEq

/-- What the receiving side of a filter makes of a packet. -/
inductive Received where
  | packet (packet : ZCPacket)
  | dropped
  | closed
  deriving DecidableEq

namespace PeerSessionTunnelFilter

/-- The session `before_send` encrypts with, unless it lets the packet pass. -/
def encryptsWith (filter : PeerSessionTunnelFilter) (header : PeerManagerHeader) :
    Option SessionRef :=
  if !filter.enabled || shouldSkipEncrypt header then
    none
  else
    match filter.peerId with
    | none => none
    | some peerId =>
      if filter.myPeerId ≠ header.fromPeerId ∨ header.toPeerId ≠ peerId then none
      else filter.session

/-- `before_send`; a packet that cannot be encrypted is dropped. -/
def beforeSend (primitives : Primitives) (filter : PeerSessionTunnelFilter) (table : SessionTable)
    (packet : ZCPacket) (nowMs : Nat) : Option ZCPacket × SessionTable :=
  match filter.encryptsWith packet.header with
  | none => (some packet, table)
  | some ref =>
    match table.sessions[ref]? with
    | none => (some packet, table)
    | some session =>
      let (result, next) := session.encryptPayload primitives filter.myPeerId
        packet.header.toPeerId packet nowMs
      (result.toOption, table.update ref next)

/-- The session `after_received` decrypts with, unless it lets the packet pass. -/
def decryptsWith (filter : PeerSessionTunnelFilter) (header : PeerManagerHeader) :
    Option SessionRef :=
  if !filter.enabled || shouldSkipEncrypt header || header.fromPeerId == 0 then
    none
  else if filter.peerId ≠ some header.fromPeerId then
    none
  else if header.toPeerId ≠ filter.myPeerId then
    none
  else
    filter.session

/-- `after_received`; a session that became invalid closes the connection. -/
def afterReceived (primitives : Primitives) (filter : PeerSessionTunnelFilter)
    (table : SessionTable) (packet : ZCPacket) (nowMs : Nat) : Received × SessionTable :=
  match filter.decryptsWith packet.header with
  | none => (.packet packet, table)
  | some ref =>
    match table.sessions[ref]? with
    | none => (.packet packet, table)
    | some session =>
      let (result, next) := session.decryptPayload primitives packet.header.fromPeerId
        filter.myPeerId packet nowMs
      (match result with
        | .ok plain => .packet plain
        | .error _ => if next.isValid then .dropped else .closed,
        table.update ref next)

section

variable {filter : PeerSessionTunnelFilter} {header : PeerManagerHeader}

/-- A packet is encrypted only if this node sends it to the peer of the connection. -/
theorem encryptsWith_cases
    {ref : SessionRef} (encrypts : filter.encryptsWith header = some ref) :
    header.fromPeerId = filter.myPeerId ∧ filter.session = some ref := by
  unfold encryptsWith at encrypts
  split at encrypts
  · cases encrypts
  split at encrypts
  · cases encrypts
  split at encrypts
  · cases encrypts
  rename_i own
  simp only [not_or, not_not] at own
  exact ⟨own.1.symm, encrypts⟩

/-- What this node sends to the peer of a connection is encrypted with the session of the
connection, handshake, Ping and Pong packets excepted. -/
theorem encryptsWith_of_toPeer
    (enabled : filter.enabled = true) (notSkipped : shouldSkipEncrypt header = false)
    (ofPeer : filter.peerId = some header.toPeerId) (own : header.fromPeerId = filter.myPeerId) :
    filter.encryptsWith header = filter.session := by
  simp [encryptsWith, enabled, notSkipped, ofPeer, own]

/-- A packet is decrypted only if the peer of the connection sends it to this node. -/
theorem decryptsWith_cases
    {ref : SessionRef} (decrypts : filter.decryptsWith header = some ref) :
    filter.peerId = some header.fromPeerId ∧ header.toPeerId = filter.myPeerId ∧
      filter.session = some ref := by
  unfold decryptsWith at decrypts
  split at decrypts
  · cases decrypts
  split at decrypts
  · cases decrypts
  rename_i ofPeer
  split at decrypts
  · cases decrypts
  rename_i forMe
  exact ⟨not_not.mp ofPeer, not_not.mp forMe, decrypts⟩

end

end PeerSessionTunnelFilter

/-- What the liveness filter of a connection has to say when a packet leaves. -/
inductive LivenessStamp where
  | disabled
  | clear
  | probe (token : Byte)
  | echo (token : Byte)
  deriving DecidableEq

/-- The liveness filter's `before_send`. -/
def LivenessStamp.apply (stamp : LivenessStamp) (packet : ZCPacket) : ZCPacket :=
  match stamp with
  | .disabled => packet
  | .clear => { packet with header := packet.header.clearLivenessMarker }
  | .probe token => { packet with header := packet.header.setLivenessMarker .livenessProbe token }
  | .echo token => { packet with header := packet.header.setLivenessMarker .livenessEcho token }

/-- The liveness filter's `after_received`. -/
def LivenessStamp.strip (enabled : Bool) (packet : ZCPacket) : ZCPacket :=
  if enabled then { packet with header := packet.header.clearLivenessMarker } else packet

/-! ## What forwarding must not change -/

/-- The copy differs from the packet at most in the forward counter, the latency-first flag and the
liveness marker. -/
structure Preserves (packet copy : ZCPacket) : Prop where
  fromPeerId : copy.header.fromPeerId = packet.header.fromPeerId
  toPeerId : copy.header.toPeerId = packet.header.toPeerId
  packetType : copy.header.packetType = packet.header.packetType
  len : copy.header.len = packet.header.len
  flags : ∀ flag, flag ≠ .latencyFirst → flag ≠ .livenessProbe → flag ≠ .livenessEcho →
    copy.header.contains flag = packet.header.contains flag
  payload : copy.payload = packet.payload

theorem Preserves.refl (packet : ZCPacket) : Preserves packet packet :=
  ⟨rfl, rfl, rfl, rfl, fun _ _ _ _ => rfl, rfl⟩

/-- Nodes that preserve packets preserve them over any number of hops. -/
theorem Preserves.trans {first second third : ZCPacket} (before : Preserves first second)
    (after : Preserves second third) : Preserves first third where
  fromPeerId := after.fromPeerId.trans before.fromPeerId
  toPeerId := after.toPeerId.trans before.toPeerId
  packetType := after.packetType.trans before.packetType
  len := after.len.trans before.len
  flags flag notLatency notProbe notEcho :=
    (after.flags flag notLatency notProbe notEcho).trans
      (before.flags flag notLatency notProbe notEcho)
  payload := after.payload.trans before.payload

theorem preserves_clearLivenessMarker (packet : ZCPacket) :
    Preserves packet { packet with header := packet.header.clearLivenessMarker } := by
  refine ⟨rfl, rfl, rfl, rfl, fun flag _ notProbe notEcho => ?_, rfl⟩
  simp [notProbe, notEcho]

theorem preserves_setLivenessMarker (packet : ZCPacket) {marker : Flag}
    (isMarker : marker = .livenessProbe ∨ marker = .livenessEcho) (token : Byte) :
    Preserves packet { packet with header := packet.header.setLivenessMarker marker token } := by
  obtain ⟨fromPeerId, toPeerId, packetType, len, flags, _⟩ := preserves_clearLivenessMarker packet
  refine ⟨fromPeerId, toPeerId, packetType, len, fun flag notLatency notProbe notEcho => ?_, rfl⟩
  have apart : flag ≠ marker := by
    rintro rfl
    exact isMarker.elim notProbe notEcho
  rw [PeerManagerHeader.contains_setLivenessMarker, if_neg apart]
  exact flags flag notLatency notProbe notEcho

theorem preserves_apply (stamp : LivenessStamp) (packet : ZCPacket) :
    Preserves packet (stamp.apply packet) := by
  cases stamp with
  | disabled => exact Preserves.refl packet
  | clear => exact preserves_clearLivenessMarker packet
  | probe token => exact preserves_setLivenessMarker packet (.inl rfl) token
  | echo token => exact preserves_setLivenessMarker packet (.inr rfl) token

theorem preserves_strip (enabled : Bool) (packet : ZCPacket) :
    Preserves packet (LivenessStamp.strip enabled packet) := by
  cases enabled with
  | false => exact Preserves.refl packet
  | true => exact preserves_clearLivenessMarker packet

variable {packet copy : ZCPacket}

theorem Preserves.isEncrypted (preserves : Preserves packet copy) :
    copy.header.isEncrypted = packet.header.isEncrypted :=
  preserves.flags .encrypted nofun nofun nofun

theorem Preserves.isCompressed (preserves : Preserves packet copy) :
    copy.header.isCompressed = packet.header.isCompressed :=
  preserves.flags .compressed nofun nofun nofun

end EasyTier.Peers
