import EasyTier.Packet.Compressor
import EasyTier.Peers.TunnelFilter
import EasyTier.Semantics.System

/-! # A node and the packets in it

A packet in a node is always at some place: in the channel of the receive loop, in the relay map, in
the buffer of packets that wait for a session, on its way to a next hop or a peer, or in the hands
of a flush. One step moves one packet and may change the session it uses, so every interleaving of
sends, receives, handshakes and connection changes is a run. Reads of the routing tables and of the
peer maps return what the environment says, since they may change between any two of them. What has
been written to a tunnel and what has been handed to the peer packet pipelines stays as history.
-/

namespace EasyTier.Peers

open Data Packet Tunnel Semantics

/-- What is set for a node and does not change. -/
structure NodeConfig where
  myPeerId : PeerId
  networkName : String
  encryptionAlgorithm : String
  secureModeEnabled : Bool
  isCredentialNode : Bool
  compressAlgo : CompressorAlgo
  encryptor : Encryptor
  codec : Codec
  primitives : Primitives

/-- The peer map a connection belongs to: the node's own, or that of its foreign network client. -/
inductive Realm where
  | own
  | foreignClient
  deriving DecidableEq

structure Conn where
  realm : Realm
  peerId : PeerId
  filter : PeerSessionTunnelFilter
  deriving DecidableEq

/-- The connection completed a Noise handshake. -/
def Conn.noise (conn : Conn) : Bool := conn.filter.session.isSome

/-- How a packet came to be in the node. -/
inductive Entered where
  | originated
  | arrived (noise : Bool)
  deriving DecidableEq

/-- Where a packet is. -/
inductive Place where
  | inbox
  | relay (policy : NextHopPolicy)
  | pending (policy : NextHopPolicy)
  | flushing (policy : NextHopPolicy) (session : SessionRef)
  | nextHop (policy : NextHopPolicy)
  | gateway
  | peer (realm : Realm) (peerId : PeerId)
  | wire (conn : Conn)
  | delivered
  deriving DecidableEq

/-- A packet in the node, with the packet it was when it came in. -/
structure Item where
  place : Place
  packet : ZCPacket
  entered : Entered
  source : ZCPacket
  deriving DecidableEq

/-- A call of `encrypt_payload` that some peer made on its session with another. -/
structure EncryptCall where
  sender : PeerId
  receiver : PeerId
  rootKey : RootKey
  nonce : SecureDatagramSession.NonceParts
  plain : Bytes
  deriving DecidableEq

/-- The sessions, connections and packets of a node. -/
structure NodeState where
  table : SessionTable
  conns : List Conn
  items : List Item
  calls : List EncryptCall

def NodeState.initial : NodeState := { table := .empty, conns := [], items := [], calls := [] }

/-- What the reads of routing tables and peer maps return. -/
structure RoutingView where
  gateway : PeerId → NextHopPolicy → Option PeerId
  hasPeer : PeerId → Bool
  hasDirectPeer : PeerId → Bool
  foreignHasNextHop : PeerId → Bool

/-- What the environment decides during one step. -/
structure StepEnv where
  nowMs : Nat
  now : RoutingView
  later : RoutingView
  conn : Nat
  stamp : LivenessStamp
  dropRelayData : Bool
  foreignMyPeerId : Option PeerId
  originPeerId : Option PeerId
  nonce : Bytes
  aclAllows : Bool

namespace Item

/-- The packet moves on, changed or not. -/
def move (item : Item) (place : Place) (packet : ZCPacket) : Item :=
  { item with place := place, packet := packet }

end Item

variable (config : NodeConfig) (table : SessionTable) (env : StepEnv)

namespace NodeConfig

/-- `send_msg_internal`: the way a packet leaves, if there is one. The second half of the reads
happens after waiting. -/
def sendMsgInternal (header : PeerManagerHeader) :
    Option Place :=
  let dstPeerId := header.toPeerId
  let policy := getNextHopPolicy header.isLatencyFirst
  let latencyFirstGateway :=
    if header.isLatencyFirst then (env.now.gateway dstPeerId policy).filter (· ≠ dstPeerId)
    else none
  if latencyFirstGateway.any fun gateway =>
      env.now.hasPeer gateway || env.now.foreignHasNextHop gateway then
    some (.relay policy)
  else if env.now.hasDirectPeer dstPeerId then
    some (.peer .own dstPeerId)
  else if dstPeerId = config.myPeerId then
    some .inbox
  else if env.now.foreignHasNextHop dstPeerId then
    some (.peer .foreignClient dstPeerId)
  else
    match env.later.gateway dstPeerId policy with
    | some gateway =>
      if env.later.hasPeer gateway || env.later.foreignHasNextHop gateway then some (.relay policy)
      else none
    | none =>
      if env.later.foreignHasNextHop dstPeerId then some (.peer .foreignClient dstPeerId) else none

/-- `try_compress_and_encrypt` with its error ignored. -/
def tryCompressAndEncrypt (packet : ZCPacket) (nonce : Bytes) : ZCPacket :=
  match compress config.codec config.compressAlgo packet with
  | none => packet
  | some compressed =>
    if config.secureModeEnabled then
      compressed
    else
      match config.encryptor.encryptWithNonce config.primitives compressed nonce with
      | .ok sealed => sealed
      | .error _ => compressed

/-- The header of a packet that is forwarded once more. -/
def forwardedHeader (header : PeerManagerHeader) : PeerManagerHeader :=
  let slower :=
    if 2 < header.forwardCounter ∧ header.isLatencyFirst then header.setLatencyFirst false
    else header
  { slower with forwardCounter := slower.forwardCounter + 1 }

/-- The forwarding half of `handle_packet`, for packets to another peer. -/
def forwardPacket (packet : ZCPacket) : Option ZCPacket :=
  let header := packet.header
  if env.dropRelayData || decide (7 < header.forwardCounter) then
    none
  else if config.isCredentialNode && (header.hasType .handShake ||
      header.hasType .noiseHandshakeMsg1 || header.hasType .noiseHandshakeMsg2 ||
      header.hasType .noiseHandshakeMsg3) then
    none
  else
    let forwarded := { packet with header := forwardedHeader header }
    if header.fromPeerId = config.myPeerId &&
        (header.hasType .data || header.hasType .kcpSrc || header.hasType .kcpDst) then
      some (config.tryCompressAndEncrypt forwarded env.nonce)
    else
      some forwarded

/-- `decrypt_if_needed` on a flagged packet of a secure node: the session is the one stored for
the sender in the header. -/
def decryptIfNeeded (packet : ZCPacket)
    (nowMs : Nat) : Option ZCPacket × SessionTable :=
  let (found, table) := table.get
    { networkName := config.networkName, peerId := packet.header.fromPeerId }
  match found.bind fun ref => (table.sessions[ref]?).map (ref, ·) with
  | none => (none, table)
  | some (ref, session) =>
    let (result, next) := session.decryptPayload config.primitives packet.header.fromPeerId
      config.myPeerId packet nowMs
    (result.toOption, table.update ref next)

/-- What the local half of `handle_packet` does before it decompresses. -/
def openLocal (packet : ZCPacket) (nowMs : Nat) :
    Option ZCPacket × SessionTable :=
  if !config.secureModeEnabled then
    ((config.encryptor.decrypt config.primitives packet).toOption, table)
  else if packet.header.isEncrypted then
    config.decryptIfNeeded table packet nowMs
  else
    (some packet, table)

/-- `handle_packet`. -/
def handlePacket (item : Item) :
    List Item × SessionTable :=
  if item.packet.header.toPeerId ≠ config.myPeerId then
    match config.forwardPacket env item.packet with
    | none => ([], table)
    | some packet =>
      match config.sendMsgInternal env packet.header with
      | none => ([], table)
      | some place => ([item.move place packet], table)
  else if item.packet.header.hasType .relayHandshake ||
      item.packet.header.hasType .relayHandshakeAck then
    ([], table)
  else
    match config.openLocal table item.packet env.nowMs with
    | (none, table) => ([], table)
    | (some opened, table) =>
      match decompress config.codec opened with
      | none => ([], table)
      | some packet => (if env.aclAllows then [item.move .delivered packet] else [], table)

/-- One round of the receive loop: `try_handle_foreign_network_packet`, then `handle_packet`. A
packet of a foreign network that this node itself sent under its id there is addressed anew. -/
def handle (item : Item) :
    List Item × SessionTable :=
  let header := item.packet.header
  if header.hasType .foreignNetworkPacket && env.dropRelayData then
    ([], table)
  else if header.hasType .foreignNetworkPacket && header.toPeerId == config.myPeerId then
    ([], table)
  else if header.hasType .foreignNetworkPacket && env.foreignMyPeerId == some header.fromPeerId then
    match env.originPeerId with
    | none => config.handlePacket table env item
    | some origin =>
      ([item.move .gateway { item.packet with header := { header with toPeerId := origin } }],
        table)
  else
    config.handlePacket table env item

/-- Encrypt a packet for its destination with a session and send it on. -/
def encryptAndSend (item : Item)
    (ref : SessionRef) (policy : NextHopPolicy) : List Item × SessionTable :=
  match table.sessions[ref]? with
  | none => ([], table)
  | some session =>
    let (result, next) := session.encryptPayload config.primitives config.myPeerId
      item.packet.header.toPeerId item.packet env.nowMs
    (match result with
      | .ok sealed => [item.move (.nextHop policy) sealed]
      | .error _ => [],
      table.update ref next)

/-- `RelayPeerMap::send_msg`; without a session the packet is buffered, up to a limit. -/
def relaySendMsg (item : Item)
    (policy : NextHopPolicy) (full : Bool) : List Item × SessionTable :=
  if !config.secureModeEnabled then
    ([item.move (.nextHop policy) item.packet], table)
  else
    match table.get { networkName := config.networkName,
                      peerId := item.packet.header.toPeerId } with
    | (none, table) => (if full then [] else [item.move (.pending policy) item.packet], table)
    | (some ref, table) => config.encryptAndSend table env item ref policy

/-- `send_msg_to_next_hop`. -/
def sendMsgToNextHop (item : Item) (policy : NextHopPolicy) :
    List Item :=
  match env.now.gateway item.packet.header.toPeerId policy with
  | none => []
  | some nextHop =>
    if !env.now.hasPeer nextHop then [item.move (.peer .foreignClient nextHop) item.packet]
    else if nextHop = config.myPeerId then [item.move .inbox item.packet]
    else [item.move (.peer .own nextHop) item.packet]

/-- `PeerMap::send_msg` with the least-hop policy. -/
def peerMapSendMsg (item : Item) : List Item :=
  match env.now.gateway item.packet.header.toPeerId .leastHop with
  | none => []
  | some gateway =>
    if gateway = config.myPeerId then [item.move .inbox item.packet]
    else [item.move (.peer .own gateway) item.packet]

/-- `Peer::send_msg` on one of the connections of the peer, through its filters. -/
def peerSendMsg (conns : List Conn) (env : StepEnv)
    (item : Item) (realm : Realm) (peerId : PeerId) : List Item × SessionTable :=
  match conns[env.conn]? with
  | none => ([], table)
  | some conn =>
    if conn.realm ≠ realm ∨ conn.peerId ≠ peerId then
      ([], table)
    else
      match conn.filter.beforeSend config.primitives table item.packet env.nowMs with
      | (none, table) => ([], table)
      | (some packet, table) => ([item.move (.wire conn) (env.stamp.apply packet)], table)

end NodeConfig

namespace NodeState

/-- `MAX_PENDING_PACKETS_PER_PEER`. -/
def maxPendingPacketsPerPeer : Nat := 32

/-- The packet waits in the buffer of a peer. -/
def waitsFor (dstPeerId : PeerId) (item : Item) : Bool :=
  match item.place with
  | .pending _ => item.packet.header.toPeerId == dstPeerId
  | _ => false

/-- One move of a packet; what waits, has left or has been delivered stays where it is. -/
def moveItem (state : NodeState) (env : StepEnv) (item : Item) :
    List Item × SessionTable :=
  match item.place with
  | .inbox => config.handle state.table env item
  | .relay policy =>
    config.relaySendMsg state.table env item policy
      (maxPendingPacketsPerPeer ≤ state.items.countP (waitsFor item.packet.header.toPeerId))
  | .flushing policy session => config.encryptAndSend state.table env item session policy
  | .nextHop policy => (config.sendMsgToNextHop env item policy, state.table)
  | .gateway => (config.peerMapSendMsg env item, state.table)
  | .peer realm peerId => config.peerSendMsg state.table state.conns env item realm peerId
  | .pending _ | .wire _ | .delivered => ([item], state.table)

end NodeState

/-- Everything that can happen at a node. -/
inductive NodeEvent where
  | respond (key : SessionKey) (aSessionGeneration : Option Nat) (recvAlgorithm : String)
      (pubkey : Option StaticPubkey) (newRootKey : RootKey) (nowMs : Nat)
  | initiated (key : SessionKey) (action : PeerSessionAction) (bSessionGeneration : Nat)
      (rootKey : Option RootKey) (initialEpoch : Nat) (recvAlgorithm : String)
      (pubkey : Option StaticPubkey) (nowMs : Nat)
  | invalidate (session : SessionRef)
  | lookUp (key : SessionKey)
  | removeEntry (key : SessionKey)
  | connect (realm : Realm) (peerId : PeerId) (session : Option SessionRef)
  | disconnect (conn : Nat)
  | flush (dstPeerId : PeerId) (session : SessionRef)
  | dropPending (dstPeerId : PeerId)
  | originate (packet : ZCPacket) (env : StepEnv)
  | arrive (conn : Nat) (packet : ZCPacket) (liveness : Bool) (nowMs : Nat)
  | step (index : Nat) (env : StepEnv)
  | encrypted (call : EncryptCall)

namespace NodeState

/-- A packet that arrived goes to the receive loop, except that the connection itself answers Ping
packets and keeps Pong packets. -/
def arrive (state : NodeState) (conn : Conn) (packet : ZCPacket)
    (liveness : Bool) (nowMs : Nat) : NodeState :=
  match conn.filter.afterReceived config.primitives state.table
      (LivenessStamp.strip liveness packet) nowMs with
  | (.packet received, table) =>
    if received.header.hasType .ping || received.header.hasType .pong then
      { state with table := table }
    else
      { state with
        table := table
        items := state.items ++ [{ place := .inbox, packet := received,
                                   entered := .arrived conn.noise, source := packet }] }
  | (.dropped, table) => { state with table := table }
  | (.closed, table) => { state with table := table, conns := state.conns.erase conn }

/-- A handshake that completed with a session is one with the peer of that session. -/
def connect (state : NodeState) (realm : Realm) (peerId : PeerId)
    (session : Option SessionRef) : Option NodeState :=
  let conn : Conn :=
    { realm := realm
      peerId := peerId
      filter :=
        { enabled := config.secureModeEnabled
          myPeerId := config.myPeerId
          peerId := session.map fun _ => peerId
          session := session } }
  match session with
  | none => some { state with conns := state.conns ++ [conn] }
  | some ref =>
    match state.table.sessions[ref]? with
    | none => none
    | some stored =>
      if stored.peerId = peerId then some { state with conns := state.conns ++ [conn] } else none

/-- `flush_pending_packets` takes over the packets that wait for a peer, with a session with it. -/
def flush (state : NodeState) (dstPeerId : PeerId) (session : SessionRef) : Option NodeState :=
  match state.table.sessions[session]? with
  | none => none
  | some stored =>
    if stored.peerId = dstPeerId then
      some { state with
        items := state.items.map fun item =>
          match item.place with
          | .pending policy =>
            if item.packet.header.toPeerId = dstPeerId then
              { item with place := .flushing policy session }
            else item
          | _ => item }
    else none

def step? (state : NodeState) : NodeEvent → Option NodeState
  | .respond key aSessionGeneration recvAlgorithm pubkey newRootKey nowMs =>
    some { state with
      table := state.table.commit key ((state.table.view.upsertResponderSession key
        aSessionGeneration config.encryptionAlgorithm recvAlgorithm pubkey newRootKey nowMs).2
        key) }
  | .initiated key action bSessionGeneration rootKey initialEpoch recvAlgorithm pubkey nowMs =>
    some { state with
      table := state.table.commit key ((state.table.view.applyInitiatorAction key action
        bSessionGeneration rootKey initialEpoch config.encryptionAlgorithm recvAlgorithm pubkey
        nowMs).2 key) }
  | .invalidate session =>
    (state.table.sessions[session]?).map fun stored =>
      { state with table := state.table.update session stored.invalidate }
  | .lookUp key => some { state with table := (state.table.get key).2 }
  | .removeEntry key => some { state with table := state.table.forget key }
  | .connect realm peerId session => state.connect config realm peerId session
  | .disconnect conn => some { state with conns := state.conns.eraseIdx conn }
  | .flush dstPeerId session => state.flush dstPeerId session
  | .dropPending dstPeerId =>
    some { state with items := state.items.filter fun item => !waitsFor dstPeerId item }
  | .originate packet env =>
    some <| match config.sendMsgInternal env packet.header with
    | none => state
    | some place =>
      { state with
        items := state.items ++ [{ place := place, packet := packet, entered := .originated,
                                   source := packet }] }
  | .arrive conn packet liveness nowMs =>
    (state.conns[conn]?).map fun conn => state.arrive config conn packet liveness nowMs
  | .step index env =>
    (state.items[index]?).map fun item =>
      let (moved, table) := state.moveItem config env item
      { state with table := table, items := state.items.eraseIdx index ++ moved }
  | .encrypted call => some { state with calls := state.calls ++ [call] }

end NodeState

/-- The runs of a node. -/
def nodeSystem : System NodeState NodeEvent :=
  .ofStep (· = NodeState.initial) (NodeState.step? config)

/-! ## Values for concrete runs -/

/-- A secure node without compression. -/
def NodeConfig.secureNode (myPeerId : PeerId) : NodeConfig where
  myPeerId := myPeerId
  networkName := "net"
  encryptionAlgorithm := "aes-gcm"
  secureModeEnabled := true
  isCredentialNode := false
  compressAlgo := .none
  encryptor := .unsupported (.invalidAlgorithm "")
  codec := { compress := fun _ => none, decompress := fun _ => none }
  primitives := .transparent

/-- Everything is reached through one peer, the only one there is a connection with. -/
def RoutingView.through (gateway : PeerId) : RoutingView where
  gateway _ _ := some gateway
  hasPeer peerId := peerId == gateway
  hasDirectPeer peerId := peerId == gateway
  foreignHasNextHop _ := false

/-- A step that reads the same routes throughout. -/
def StepEnv.reading (view : RoutingView) : StepEnv where
  nowMs := 0
  now := view
  later := view
  conn := 0
  stamp := .disabled
  dropRelayData := false
  foreignMyPeerId := none
  originPeerId := none
  nonce := []
  aclAllows := true

end EasyTier.Peers
