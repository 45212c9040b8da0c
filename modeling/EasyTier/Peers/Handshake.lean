import EasyTier.Packet.ForeignNetwork
import EasyTier.Peers.CredentialManager
import EasyTier.Peers.KeyDisclosure

/-! # The handshakes of a peer connection

A connection starts with one of two handshakes. The plain one exchanges a network name and the
digest of the network secret. The one of secure mode is the Noise pattern XX: the responder settles
a session on the first message, answers, and learns the initiator's static key, its proof of the
secret and its digest from the third.

Packets are buffers as they come from the tunnel. What the Noise library and the message decoder
make of their bytes is a parameter without any law, so a remote may send anything. A result of
`none` stands for a panic; an exchange that is left without an expected packet has been closed or
has timed out.
-/

namespace EasyTier.Peers

open Data Packet Tunnel

/-! ## Network identities -/

abbrev NetworkSecretDigest := { bytes : Bytes // bytes.length = 32 }

structure NetworkIdentity where
  networkName : String
  networkSecret : Option String
  networkSecretDigest : Option NetworkSecretDigest
  deriving DecidableEq

/-- The keyed functions of the network secret: the digest of a name and a secret, and the code that
authenticates a challenge. -/
structure SecretLibrary where
  networkSecretDigest : String → String → NetworkSecretDigest
  secretProof : String → Bytes → Bytes

namespace NetworkIdentity

variable (library : SecretLibrary)

def new (networkName networkSecret : String) : NetworkIdentity :=
  { networkName := networkName
    networkSecret := some networkSecret
    networkSecretDigest := some (library.networkSecretDigest networkName networkSecret) }

/-- `secret_digest`: the stored digest, or the one of the secret. -/
def secretDigest (identity : NetworkIdentity) : Option NetworkSecretDigest :=
  match identity.networkSecretDigest with
  | some digest => some digest
  | none => identity.networkSecret.map (library.networkSecretDigest identity.networkName)

/-- Identities are compared by their names and their digests. -/
def sameAs (identity other : NetworkIdentity) : Bool :=
  identity.networkName == other.networkName &&
    identity.secretDigest library == other.secretDigest library

end NetworkIdentity

def NetworkSecretDigest.zero : NetworkSecretDigest := ⟨List.replicate 32 0, by simp⟩

/-- What a connection asks its node. -/
structure ConnContext where
  library : SecretLibrary
  identity : NetworkIdentity
  secureMode : Bool
  localStaticPubkey : Bytes
  encryptionAlgorithm : String
  hmacSecretDigest : Bool
  /-- The trusted keys of a network that the route has collected. -/
  trustedKeys : Bytes → String → Bool
  /-- The keys of the credentials this node has issued. -/
  ownCredentials : Bytes → Bool
  /-- The key that is pinned for the remote address of the connection. A pin that is no key ends
  the handshake before its first message. -/
  pinnedRemoteStaticPubkey : Option Bytes

variable (context : ConnContext)

namespace ConnContext

def isPubkeyTrusted (pubkey : Bytes) (networkName : String) : Bool :=
  context.trustedKeys pubkey networkName ||
    (networkName == context.identity.networkName && context.ownCredentials pubkey)

/-- `secret_proof`, as the bytes of the finished code. -/
def secretProof (challenge : Bytes) : Option Bytes :=
  context.identity.networkSecret.map fun secret => context.library.secretProof secret challenge

/-- `secret_digest` of the context, which has the length of a code, of a digest, or zero. -/
def secretDigest : Bytes :=
  if context.hmacSecretDigest then (context.secretProof (utf8Bytes "digest")).getD []
  else ((context.identity.secretDigest context.library).getD NetworkSecretDigest.zero).val

end ConnContext

/-! ## Messages -/

/-- The plain handshake message; `myPeerId` is the sender. -/
structure HandshakeRequest where
  myPeerId : PeerId
  features : List String
  networkName : String
  networkSecretDigest : Bytes
  deriving DecidableEq

structure NoiseMsg1 extends PeerConnNoiseMsg1 where
  aConnId : Option Uuid
  features : List String
  deriving DecidableEq

/-- The second message. An action that is no known one and a root key that is not 32 bytes long are
missing. -/
structure NoiseMsg2 where
  bNetworkName : String
  roleHint : Nat
  action : Option PeerSessionAction
  bSessionGeneration : Nat
  rootKey32 : Option RootKey
  initialEpoch : Nat
  bConnId : Option Uuid
  aConnIdEcho : Option Uuid
  secretProof32 : Option Bytes
  serverEncryptionAlgorithm : String
  features : List String
  deriving DecidableEq

structure NoiseMsg3 where
  aConnIdEcho : Option Uuid
  bConnIdEcho : Option Uuid
  secretProof32 : Option Bytes
  secretDigest : Bytes
  deriving DecidableEq

/-- What the bytes of the remote are read as. A Noise message is read in the state of its exchange:
the third after the first and the second, with the static key the remote has proved to own. -/
structure Wire where
  readHandshake : Bytes → Option HandshakeRequest
  readMsg1 : Bytes → Option NoiseMsg1
  hashAfterMsg1 : Bytes → Bytes
  hashAfterMsg2 : Bytes → NoiseMsg2 → Bytes
  readMsg3 : Bytes → NoiseMsg2 → Bytes → Option (NoiseMsg3 × Bytes)
  initiatorHash : NoiseMsg1 → Bytes
  readMsg2 : NoiseMsg1 → Bytes → Option (NoiseMsg2 × Bytes)

inductive ConnError where
  | noPeerManagerHeader
  | packetType
  | unreadable
  | invalidDigest
  | closed
  | sendFailed
  | refused
  | session (error : SessionError)
  | aConnIdMismatch
  | bConnIdMismatch
  | connIdEchoMismatch
  | peerIdMismatch
  | invalidSessionAction
  | roleHint
  | pinnedPubkeyMismatch
  | authenticationFailed
  | unexpectedPacketType (packetType : Byte)
  | peerIdConflict
  | secureModeMismatch
  | identityMismatch
  deriving DecidableEq

/-- The texts of the errors, without the values that some of them end in. -/
def ConnError.message : ConnError → String
  | .noPeerManagerHeader => "packet without peer manager header"
  | .packetType => "packet type not the expected one"
  | .unreadable => "noise read msg or decode message failed"
  | .invalidDigest => "invalid network secret digest"
  | .closed => "conn closed during wait handshake response"
  | .sendFailed => "send handshake request error"
  | .refused => "handshake refused"
  | .session (.message text) => text
  | .session (.cipher _) => "cipher error"
  | .aConnIdMismatch => "noise msg3 a_conn_id mismatch"
  | .bConnIdMismatch => "noise msg3 b_conn_id mismatch"
  | .connIdEchoMismatch => "noise msg2 conn_id_echo mismatch"
  | .peerIdMismatch => "peer_id mismatch"
  | .invalidSessionAction => "invalid session action"
  | .roleHint => "role_hint must be 1 when network_name is same"
  | .pinnedPubkeyMismatch => "pinned remote static pubkey mismatch"
  | .authenticationFailed => "authentication failed: invalid proof and unknown credential"
  | .unexpectedPacketType _ => "unexpected packet type during handshake"
  | .peerIdConflict => "peer id conflict"
  | .secureModeMismatch => "same-network peers must use the same secure mode"
  | .identityMismatch => "network identity not match"

/-! ## Authentication -/

inductive SecureAuthLevel where
  | none
  | encryptedUnauthenticated
  | peerVerified
  | networkSecretConfirmed
  deriving DecidableEq, Repr

inductive PeerIdentityType where
  | admin
  | credential
  | sharedNode
  deriving DecidableEq, Repr

namespace ConnContext

/-- A proof is there and is the code of the challenge under the network secret. -/
def proofVerifies (proof : Option Bytes) (handshakeHash : Bytes) : Bool :=
  match proof, context.secretProof handshakeHash with
  | some proof, some mac => proof == mac
  | _, _ => false

/-- `verify_remote_auth`. -/
def verifyRemoteAuth (proof : Option Bytes) (handshakeHash : Bytes)
    (remotePubkey : Bytes) (pinnedPubkey : Option Bytes) (hasNetworkSecret isInitiator : Bool)
    (remoteNetworkName : String) : Except ConnError SecureAuthLevel :=
  if context.proofVerifies proof handshakeHash then .ok .networkSecretConfirmed
  else
    match pinnedPubkey with
    | some pinned =>
      if pinned ≠ remotePubkey then .error .pinnedPubkeyMismatch else .ok .peerVerified
    | none =>
      if context.isPubkeyTrusted remotePubkey remoteNetworkName then .ok .peerVerified
      else if isInitiator && !hasNetworkSecret then .ok .encryptedUnauthenticated
      else .error .authenticationFailed

/-- `classify_remote_identity`. -/
def classifyRemoteIdentity (remoteNetworkName : String)
    (secureAuthLevel : SecureAuthLevel) (remoteRoleHintIsSameNetwork remoteSentSecretProof : Bool)
    (isClient : Bool) : PeerIdentityType :=
  if !remoteRoleHintIsSameNetwork || remoteNetworkName != context.identity.networkName then
    if isClient then .sharedNode
    else if remoteSentSecretProof then .admin
    else .credential
  else if secureAuthLevel = .networkSecretConfirmed || remoteSentSecretProof then .admin
  else .credential

end ConnContext

structure NoiseHandshakeResult where
  peerId : PeerId
  /-- Where the session of the connection is in the store. -/
  session : SessionKey
  localStaticPubkey : Bytes
  remoteStaticPubkey : Bytes
  secureAuthLevel : SecureAuthLevel
  peerIdentityType : PeerIdentityType
  remoteNetworkName : String
  secretDigest : Bytes
  /-- The challenge and the proof the initiator presented. -/
  clientSecretProof : Option (Bytes × Bytes)
  remoteFeatures : List String
  deriving DecidableEq

/-- The static key as the session store has it: it has to be 32 bytes long. -/
def remoteStaticKey (remoteStatic : Bytes) : Option StaticPubkey :=
  if remoteStatic.length = 32 then some (BitVec.ofNat 256 (BigEndian.decode remoteStatic)) else none

/-! ## Receiving -/

/-- `recv_next_peer_manager_packet`: packets without a header, and packets of another type than the
expected one, are skipped. -/
def recvNextPeerManagerPacket (expected : Option PacketType) :
    List PacketBuffer → Option (PacketBuffer × List PacketBuffer)
  | [] => none
  | packet :: packets =>
    match packet.peerManagerHeader with
    | none => recvNextPeerManagerPacket expected packets
    | some header =>
      if expected.all header.hasType then some (packet, packets)
      else recvNextPeerManagerPacket expected packets

/-- `decode_handshake_message`, with the reader of the message. -/
def decodeHandshakeMessage {Message : Type} (expected : PacketType)
    (read : Bytes → Option Message) (packet : PacketBuffer) : Option (Except ConnError Message) :=
  match packet.peerManagerHeader with
  | none => some (.error .noPeerManagerHeader)
  | some header =>
    if !header.hasType expected then some (.error .packetType)
    else
      packet.payload.map fun payload =>
        match read payload with
        | some message => .ok message
        | none => .error .unreadable

/-! ## The responder of the Noise handshake -/

/-- What the responder draws, and whether its answer could be sent. -/
structure ServerDraws where
  newRootKey : RootKey
  bConnId : Uuid
  nowMs : Nat
  sent : Bool

/-- `handshake_recved`: refuses the network of the remote, or settles the peer id to use in it. -/
abbrev HandshakeRecved := PeerId → String → Except ConnError PeerId

/-- What the responder knows when it has answered the first message. -/
structure Msg1Answer where
  remotePeerId : PeerId
  myPeerId : PeerId
  msg1 : NoiseMsg1
  msg1Payload : Bytes
  msg2 : NoiseMsg2
  deriving DecidableEq

namespace Msg1Answer

/-- The entry of the store the answer was given from. -/
def key (answer : Msg1Answer) : SessionKey :=
  ResponderContext.directKey answer.msg1.toPeerConnNoiseMsg1 answer.remotePeerId

end Msg1Answer

namespace ConnContext

variable (wire : Wire)

/-- The role hint and the proof of the second message. -/
def ownProof (msg1 : NoiseMsg1) (msg1Payload : Bytes) : Nat × Option Bytes :=
  if msg1.aNetworkName = context.identity.networkName then
    (1, context.secretProof (wire.hashAfterMsg1 msg1Payload))
  else (2, none)

/-- `do_noise_handshake_as_server` up to its second message. -/
def answerMsg1 (recved : HandshakeRecved) (myPeerId : PeerId)
    (store : PeerSessionStore) (draws : ServerDraws) (first : PacketBuffer) :
    Option (Except ConnError Msg1Answer × PeerSessionStore) := do
  -- The `expect` of the source id.
  let header ← first.peerManagerHeader
  let payload ← first.payload
  let msg1 ← decodeHandshakeMessage .noiseHandshakeMsg1 wire.readMsg1 first
  match msg1 with
  | .error error => return (.error error, store)
  | .ok msg1 =>
    match recved myPeerId msg1.aNetworkName with
    | .error error => return (.error error, store)
    | .ok myPeerId =>
      let (roleHint, secretProof32) := context.ownProof wire msg1 payload
      match store.upsertResponderSession
          (ResponderContext.directKey msg1.toPeerConnNoiseMsg1 header.fromPeerId)
          msg1.aSessionGeneration context.encryptionAlgorithm msg1.clientEncryptionAlgorithm none
          draws.newRootKey draws.nowMs with
      | (.error error, store) => return (.error (.session error), store)
      | (.ok upserted, store) =>
        return (.ok
          { remotePeerId := header.fromPeerId
            myPeerId := myPeerId
            msg1 := msg1
            msg1Payload := payload
            msg2 :=
              { bNetworkName := context.identity.networkName
                roleHint := roleHint
                action := some upserted.action
                bSessionGeneration := upserted.sessionGeneration
                rootKey32 := upserted.rootKey
                initialEpoch := upserted.initialEpoch
                bConnId := some draws.bConnId
                aConnIdEcho := msg1.aConnId
                secretProof32 := secretProof32
                serverEncryptionAlgorithm := context.encryptionAlgorithm
                features := ["liveness-echo-v1"] } }, store)

/-- The part of the handshake from sending the second message to checking the connection ids of the
third: the third message, the static key behind it, and the packets that follow. -/
def awaitMsg3 (answer : Msg1Answer) (draws : ServerDraws) (packets : List PacketBuffer) :
    Option (Except ConnError (NoiseMsg3 × Bytes × List PacketBuffer)) :=
  if !draws.sent then some (.error .sendFailed)
  else
    match recvNextPeerManagerPacket (some .noiseHandshakeMsg3) packets with
    | none => some (.error .closed)
    | some (packet, packets) =>
      (decodeHandshakeMessage .noiseHandshakeMsg3
        (wire.readMsg3 answer.msg1Payload answer.msg2) packet).map fun msg3 =>
        match msg3 with
        | .error error => .error error
        | .ok (msg3, remoteStatic) =>
          if msg3.aConnIdEcho ≠ answer.msg1.aConnId then .error .aConnIdMismatch
          else if msg3.bConnIdEcho ≠ some draws.bConnId then .error .bConnIdMismatch
          else .ok (msg3, remoteStatic, packets)

/-- Recording the static key on the session the answer was given from. -/
def bindStaticKey (store : PeerSessionStore) (key : SessionKey) (remoteStatic : Bytes) :
    Except ConnError Unit × PeerSessionStore :=
  match store key with
  | none => (.ok (), store)
  | some session =>
    match session.checkOrSetPeerStaticPubkey (remoteStaticKey remoteStatic) with
    | .error error => (.error (.session error), store)
    | .ok session => (.ok (), store.insert key session)

/-- The authentication level the responder gives to the initiator. -/
def authenticateClient (answer : Msg1Answer)
    (msg3 : NoiseMsg3) (remoteStatic : Bytes) : Except ConnError SecureAuthLevel :=
  if answer.msg2.roleHint = 1 then
    context.verifyRemoteAuth msg3.secretProof32
      (wire.hashAfterMsg2 answer.msg1Payload answer.msg2) remoteStatic none
      context.identity.networkSecret.isSome false answer.msg1.aNetworkName
  else .ok .encryptedUnauthenticated

/-- The result of a handshake whose initiator is authenticated. -/
def serverResult (answer : Msg1Answer) (msg3 : NoiseMsg3)
    (remoteStatic : Bytes) (level : SecureAuthLevel) : NoiseHandshakeResult :=
  { peerId := answer.remotePeerId
    session := answer.key
    localStaticPubkey := context.localStaticPubkey
    remoteStaticPubkey := remoteStatic
    secureAuthLevel := level
    peerIdentityType := context.classifyRemoteIdentity answer.msg1.aNetworkName level
      (answer.msg2.roleHint = 1) msg3.secretProof32.isSome false
    remoteNetworkName := answer.msg1.aNetworkName
    secretDigest := msg3.secretDigest
    clientSecretProof := msg3.secretProof32.map fun proof =>
      (wire.hashAfterMsg2 answer.msg1Payload answer.msg2, proof)
    remoteFeatures := answer.msg1.features }

/-- `do_noise_handshake_as_server`: the result, the peer id to use, and the packets that follow. -/
def doNoiseHandshakeAsServer (recved : HandshakeRecved)
    (myPeerId : PeerId) (store : PeerSessionStore) (draws : ServerDraws) (first : PacketBuffer)
    (packets : List PacketBuffer) :
    Option (Except ConnError (NoiseHandshakeResult × PeerId × List PacketBuffer) ×
      PeerSessionStore) := do
  let (answered, store) ← context.answerMsg1 wire recved myPeerId store draws first
  match answered with
  | .error error => return (.error error, store)
  | .ok answer =>
    let received ← awaitMsg3 wire answer draws packets
    match received with
    | .error error => return (.error error, store)
    | .ok (msg3, remoteStatic, packets) =>
      -- The key is recorded before the initiator is authenticated.
      match bindStaticKey store answer.key remoteStatic with
      | (.error error, store) => return (.error error, store)
      | (.ok _, store) =>
        match context.authenticateClient wire answer msg3 remoteStatic with
        | .error error => return (.error error, store)
        | .ok level =>
          return (.ok (context.serverResult wire answer msg3 remoteStatic level, answer.myPeerId,
            packets), store)

/-! ## The initiator of the Noise handshake -/

/-- What the initiator draws and reads from its surroundings. -/
structure ClientDraws where
  aConnId : Uuid
  nowMs : Nat
  msg1Sent : Bool
  msg3Sent : Bool

/-- The first message of the initiator; the generation is that of the session it has with the peer
it means to reach. -/
def ownMsg1 (store : PeerSessionStore) (peerIdHint : Option PeerId)
    (draws : ClientDraws) : NoiseMsg1 × PeerSessionStore :=
  let (session, store) := match peerIdHint with
    | none => (none, store)
    | some peerId => store.get { networkName := context.identity.networkName, peerId := peerId }
  ({ aNetworkName := context.identity.networkName
     aSessionGeneration := session.map (·.sessionGeneration)
     clientEncryptionAlgorithm := context.encryptionAlgorithm
     aConnId := some draws.aConnId
     features := ["liveness-echo-v1"] }, store)

/-- The checks the initiator makes on the second message, before it sends the third. -/
def checkMsg2 (draws : ClientDraws) (msg2 : NoiseMsg2) :
    Except ConnError PeerSessionAction :=
  if msg2.aConnIdEcho ≠ some draws.aConnId then .error .connIdEchoMismatch
  else
    match msg2.action with
    | none => .error .invalidSessionAction
    | some action =>
      if msg2.bNetworkName = context.identity.networkName ∧ msg2.roleHint ≠ 1 then .error .roleHint
      else .ok action

/-- The authentication level the initiator gives to the responder. -/
def authenticateServer (msg1 : NoiseMsg1) (msg2 : NoiseMsg2)
    (remoteStatic : Bytes) : Except ConnError SecureAuthLevel :=
  if msg2.roleHint ≠ 1 ∧ context.pinnedRemoteStaticPubkey = none then .ok .encryptedUnauthenticated
  else
    context.verifyRemoteAuth msg2.secretProof32 (wire.initiatorHash msg1) remoteStatic
      context.pinnedRemoteStaticPubkey context.identity.networkSecret.isSome true msg2.bNetworkName

/-- `do_noise_handshake_as_client` from the second message on. -/
def finishAsClient (store : PeerSessionStore)
    (draws : ClientDraws) (msg1 : NoiseMsg1) (remotePeerId : PeerId) (msg2 : NoiseMsg2)
    (remoteStatic : Bytes) : Except ConnError NoiseHandshakeResult × PeerSessionStore :=
  match context.checkMsg2 draws msg2 with
  | .error error => (.error error, store)
  | .ok action =>
    if !draws.msg3Sent then (.error .sendFailed, store)
    else
      match context.authenticateServer wire msg1 msg2 remoteStatic with
      | .error error => (.error error, store)
      | .ok level =>
        let key : SessionKey :=
          { networkName := context.identity.networkName, peerId := remotePeerId }
        match store.applyInitiatorAction key action msg2.bSessionGeneration msg2.rootKey32
            msg2.initialEpoch context.encryptionAlgorithm msg2.serverEncryptionAlgorithm
            (remoteStaticKey remoteStatic) draws.nowMs with
        | (.error error, store) => (.error (.session error), store)
        | (.ok _, store) =>
          (.ok
            { peerId := remotePeerId
              session := key
              localStaticPubkey := context.localStaticPubkey
              remoteStaticPubkey := remoteStatic
              secureAuthLevel := level
              peerIdentityType := context.classifyRemoteIdentity msg2.bNetworkName level
                (msg2.roleHint = 1) msg2.secretProof32.isSome true
              remoteNetworkName := msg2.bNetworkName
              -- The responder is authorised by the handshake, so the own digest stands for its.
              secretDigest := context.secretDigest
              clientSecretProof := none
              remoteFeatures := msg2.features }, store)

/-- `do_noise_handshake_as_client`. -/
def doNoiseHandshakeAsClient (peerIdHint : Option PeerId)
    (store : PeerSessionStore) (draws : ClientDraws) (packets : List PacketBuffer) :
    Option (Except ConnError (NoiseHandshakeResult × List PacketBuffer) × PeerSessionStore) := do
  let (msg1, store) := context.ownMsg1 store peerIdHint draws
  if !draws.msg1Sent then return (.error .sendFailed, store)
  else
    match recvNextPeerManagerPacket (some .noiseHandshakeMsg2) packets with
    | none => return (.error .closed, store)
    | some (packet, packets) =>
      -- The `expect` of the source id.
      let header ← packet.peerManagerHeader
      if peerIdHint.any (· ≠ header.fromPeerId) then return (.error .peerIdMismatch, store)
      else
        let msg2 ← decodeHandshakeMessage .noiseHandshakeMsg2 (wire.readMsg2 msg1) packet
        match msg2 with
        | .error error => return (.error error, store)
        | .ok (msg2, remoteStatic) =>
          let (result, store) :=
            context.finishAsClient wire store draws msg1 header.fromPeerId msg2 remoteStatic
          return (result.map fun result => (result, packets), store)

end ConnContext

/-! ## The plain handshake -/

/-- `decode_handshake_packet`. -/
def decodeHandshakePacket (wire : Wire) (packet : PacketBuffer) :
    Option (Except ConnError HandshakeRequest) :=
  (decodeHandshakeMessage .handShake wire.readHandshake packet).map fun decoded =>
    match decoded with
    | .error error => .error error
    | .ok request =>
      if request.networkSecretDigest.length ≠ 32 then .error .invalidDigest else .ok request

/-- `wait_handshake_loop`: packets that are no valid handshake are skipped. -/
def waitHandshakeLoop (wire : Wire) :
    List PacketBuffer → Option (Except ConnError (HandshakeRequest × List PacketBuffer))
  | [] => some (.error .closed)
  | packet :: packets => do
    let decoded ← decodeHandshakePacket wire packet
    match decoded with
    | .ok request => return .ok (request, packets)
    | .error _ => waitHandshakeLoop wire packets

/-! ## Connections -/

/-- The part of a connection that the handshakes settle. -/
structure PeerConn where
  myPeerId : PeerId
  info : Option HandshakeRequest
  noiseHandshakeResult : Option NoiseHandshakeResult
  isClient : Option Bool
  deriving DecidableEq

namespace PeerConn

variable (conn : PeerConn)

def new (myPeerId : PeerId) : PeerConn :=
  { myPeerId := myPeerId, info := none, noiseHandshakeResult := none, isClient := none }

/-- `get_peer_id`: the `unwrap` of the handshake information. -/
def getPeerId : Option PeerId := conn.info.map (·.myPeerId)

/-- `get_network_identity`: the digest is copied into an array of 32 bytes. -/
def getNetworkIdentity : Option NetworkIdentity := do
  let info ← conn.info
  let digest ← copyInto? NetworkSecretDigest.zero.val 0 32 info.networkSecretDigest
  if long : digest.length = 32 then
    return { networkName := info.networkName, networkSecret := none
             networkSecretDigest := some ⟨digest, long⟩ }
  else none

/-- `build_handshake_rsp`. -/
def buildHandshakeRsp (noise : NoiseHandshakeResult) : HandshakeRequest :=
  { myPeerId := noise.peerId
    features := noise.remoteFeatures
    networkName := noise.remoteNetworkName
    networkSecretDigest := noise.secretDigest }

/-- The static key `get_conn_info` reports, nothing without a Noise handshake. -/
def noiseRemoteStaticPubkey : Bytes :=
  (conn.noiseHandshakeResult.map (·.remoteStaticPubkey)).getD []

def getPeerIdentityType : PeerIdentityType :=
  (conn.noiseHandshakeResult.map (·.peerIdentityType)).getD .admin

/-- The message of `send_handshake`; without the digest there are zeros in its place. -/
def ownHandshake (sendSecretDigest : Bool) : HandshakeRequest :=
  { myPeerId := conn.myPeerId
    features := ["liveness-echo-v1"]
    networkName := context.identity.networkName
    networkSecretDigest :=
      if sendSecretDigest then
        ((context.identity.secretDigest context.library).getD NetworkSecretDigest.zero).val
      else NetworkSecretDigest.zero.val }

/-- The last test of both handshakes. -/
def checkPeerId : Option (Except ConnError PeerConn) := do
  let peerId ← conn.getPeerId
  return if peerId = conn.myPeerId then .error .peerIdConflict else .ok conn

/-- The plain handshake of `do_handshake_as_server_ext`: the connection and the answer, which has
the digest for a remote of the same identity only. `sent` says whether the answer could be sent. -/
def plainHandshakeAsServer (wire : Wire) (recved : HandshakeRecved)
    (conn : PeerConn) (sent : Bool) (first : PacketBuffer) :
    Option (Except ConnError (PeerConn × HandshakeRequest)) := do
  let decoded ← decodeHandshakePacket wire first
  match decoded with
  | .error error => return .error error
  | .ok request =>
    match recved conn.myPeerId request.networkName with
    | .error error => return .error error
    | .ok myPeerId =>
      let conn : PeerConn :=
        { conn with myPeerId := myPeerId, info := some request, isClient := some false }
      let identity ← conn.getNetworkIdentity
      let answer :=
        ownHandshake context conn (identity.sameAs context.library context.identity)
      if !sent then return .error .sendFailed
      else
        let checked ← conn.checkPeerId
        return checked.map fun conn => (conn, answer)

/-- `do_handshake_as_server_ext`: the connection, and the packets that follow the handshake. -/
def doHandshakeAsServerExt (wire : Wire) (recved : HandshakeRecved)
    (conn : PeerConn) (store : PeerSessionStore) (draws : ServerDraws)
    (packets : List PacketBuffer) :
    Option (Except ConnError (PeerConn × List PacketBuffer) × PeerSessionStore) :=
  match recvNextPeerManagerPacket none packets with
  | none => some (.error .closed, store)
  | some (first, packets) =>
    match first.peerManagerHeader with
    | none => some (.error .noPeerManagerHeader, store)
    | some header =>
      if context.secureMode && header.hasType .noiseHandshakeMsg1 then do
        let (result, store) ← context.doNoiseHandshakeAsServer wire recved conn.myPeerId store draws
          first packets
        match result with
        | .error error => return (.error error, store)
        | .ok (noise, myPeerId, packets) =>
          let conn : PeerConn :=
            { myPeerId := myPeerId
              info := some (buildHandshakeRsp noise)
              noiseHandshakeResult := some noise
              isClient := some false }
          let checked ← conn.checkPeerId
          return (checked.map fun conn => (conn, packets), store)
      else if header.hasType .handShake then do
        let shaken ← conn.plainHandshakeAsServer context wire recved draws.sent first
        return (shaken.map fun (conn, _) => (conn, packets), store)
      else some (.error (.unexpectedPacketType header.packetType), store)

/-- `do_handshake_as_client`. -/
def doHandshakeAsClient (wire : Wire) (peerIdHint : Option PeerId)
    (conn : PeerConn) (store : PeerSessionStore) (draws : ConnContext.ClientDraws)
    (packets : List PacketBuffer) :
    Option (Except ConnError (PeerConn × List PacketBuffer) × PeerSessionStore) :=
  if context.secureMode then do
    let (result, store) ← context.doNoiseHandshakeAsClient wire peerIdHint store draws packets
    match result with
    | .error error => return (.error error, store)
    | .ok (noise, packets) =>
      let conn : PeerConn :=
        { conn with
          info := some (buildHandshakeRsp noise), noiseHandshakeResult := some noise
          isClient := some true }
      let checked ← conn.checkPeerId
      return (checked.map fun conn => (conn, packets), store)
  else if !draws.msg1Sent then some (.error .sendFailed, store)
  else do
    let waited ← waitHandshakeLoop wire packets
    match waited with
    | .error error => return (.error error, store)
    | .ok (request, packets) =>
      let conn : PeerConn := { conn with info := some request, isClient := some true }
      let checked ← conn.checkPeerId
      return (checked.map fun conn => (conn, packets), store)

end PeerConn

end EasyTier.Peers
