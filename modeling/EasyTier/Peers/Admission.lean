import EasyTier.Peers.RemoteAuth

/-! # Admission to the local network

A connection whose handshake names the local network is admitted to it after a second look at the
identity: both sides use secure mode or neither does, and the digests of the secret agree. A digest
of zeros stands for a credential node, for which only the name is compared. Secure mode has
authenticated the remote by then; without it the digest is all there is.
-/

namespace EasyTier.Peers

open Data Packet

/-! ## The last check -/

/-- `network_secret_digest_is_empty`. -/
def NetworkIdentity.networkSecretDigestIsEmpty (identity : NetworkIdentity) : Bool :=
  identity.networkSecretDigest.all (·.val.all (· == 0))

/-- The comparison of identities: of the names only where a digest is empty. -/
def ConnContext.identityOk (context : ConnContext) (peerIdentity : NetworkIdentity) : Bool :=
  if context.identity.networkSecretDigestIsEmpty || peerIdentity.networkSecretDigestIsEmpty then
    context.identity.networkName == peerIdentity.networkName
  else context.identity.sameAs context.library peerIdentity

open ConnContext

/-- `add_new_peer_conn` up to the insertion into the peer map. -/
def addNewPeerConn (context : ConnContext) (conn : PeerConn) :
    Option (Except ConnError PeerId) := do
  let peerIdentity ← conn.getNetworkIdentity
  let peerSecureMode := !conn.noiseRemoteStaticPubkey.isEmpty
  if context.secureMode != peerSecureMode then return .error .secureModeMismatch
  else if !context.identityOk peerIdentity then return .error .identityMismatch
  else
    let peerId ← conn.getPeerId
    return .ok peerId

/-- The side a node takes, with what it draws. -/
inductive Role where
  | client (peerIdHint : Option PeerId) (draws : ConnContext.ClientDraws)
  | server (recved : HandshakeRecved) (draws : ServerDraws)

/-- Where a connection goes after its handshake. -/
inductive Admission where
  | localNetwork (conn : PeerConn)
  | foreignNetwork (conn : PeerConn)
  deriving DecidableEq

/-- A tunnel as it comes to a node: the side the node takes, the packets of the remote, and how they
are read. -/
structure PeerTunnel where
  role : Role
  wire : Wire
  packets : List PacketBuffer

open PeerTunnel

namespace PeerTunnel

/-- The handshake of the node's side. -/
def handshake (tunnel : PeerTunnel) (context : ConnContext) (myPeerId : PeerId)
    (store : PeerSessionStore) :
    Option (Except ConnError (PeerConn × List PacketBuffer) × PeerSessionStore) :=
  match tunnel.role with
  | .client peerIdHint draws =>
    (PeerConn.new myPeerId).doHandshakeAsClient context tunnel.wire peerIdHint store draws
      tunnel.packets
  | .server recved draws =>
    (PeerConn.new myPeerId).doHandshakeAsServerExt context tunnel.wire recved store draws
      tunnel.packets

/-- `add_client_tunnel` and `add_tunnel_as_server`. -/
def add (tunnel : PeerTunnel) (context : ConnContext) (myPeerId : PeerId)
    (store : PeerSessionStore) :
    Option (Except ConnError Admission) := do
  let (shaken, _) ← tunnel.handshake context myPeerId store
  match shaken with
  | .error error => return .error error
  | .ok (conn, _) =>
    let identity ← conn.getNetworkIdentity
    if identity.networkName = context.identity.networkName then
      let added ← addNewPeerConn context conn
      return added.map fun _ => .localNetwork conn
    else return .ok (.foreignNetwork conn)

/-! ## What the remote presents -/

/-- The request of the remote in the plain handshake. -/
def request (tunnel : PeerTunnel) : Option HandshakeRequest :=
  match tunnel.role with
  | .client _ _ => (waitHandshakeLoop tunnel.wire tunnel.packets).bind fun waited =>
    waited.toOption.map (·.1)
  | .server _ _ => do
    let (first, _) ← recvNextPeerManagerPacket none tunnel.packets
    let decoded ← decodeHandshakePacket tunnel.wire first
    decoded.toOption

/-- The proof of the remote in the Noise handshake, the challenge it is for, and the static key. -/
def credentials (tunnel : PeerTunnel) (context : ConnContext) (myPeerId : PeerId)
    (store : PeerSessionStore) : Option (Option Bytes × Bytes × Bytes) :=
  match tunnel.role with
  | .client peerIdHint draws => do
    let (msg1, _) := context.ownMsg1 store peerIdHint draws
    let (packet, _) ← recvNextPeerManagerPacket (some .noiseHandshakeMsg2) tunnel.packets
    let payload ← packet.payload
    let (msg2, remoteStatic) ← tunnel.wire.readMsg2 msg1 payload
    return (msg2.secretProof32, tunnel.wire.initiatorHash msg1, remoteStatic)
  | .server recved draws => do
    let (first, packets) ← recvNextPeerManagerPacket none tunnel.packets
    let exchange : ServerExchange := ⟨tunnel.wire, recved, myPeerId, draws, first, packets⟩
    let (answered, _) ← exchange.answer context store
    let answer ← answered.toOption
    let received ← exchange.third answer
    let (msg3, remoteStatic, _) ← received.toOption
    return (msg3.secretProof32, exchange.challenge answer, remoteStatic)

/-- The remote is one of the local network: without secure mode it presents the digest of the local
secret; in secure mode its proof verifies, or its key is the pinned one or trusted. -/
def Authenticated (tunnel : PeerTunnel) (context : ConnContext) (myPeerId : PeerId)
    (store : PeerSessionStore) : Prop :=
  if context.secureMode then
    ∃ proof challenge remoteStatic,
      tunnel.credentials context myPeerId store = some (proof, challenge, remoteStatic) ∧
      (context.proofVerifies proof challenge = true ∨
        context.pinnedRemoteStaticPubkey = some remoteStatic ∨
        context.isPubkeyTrusted remoteStatic context.identity.networkName = true)
  else
    ∃ request digest, tunnel.request = some request ∧
      context.identity.secretDigest context.library = some digest ∧
      request.networkSecretDigest = digest.val

end PeerTunnel

/-! ## Inversions of the handshakes -/

namespace PeerConn

variable {context : ConnContext} {wire : Wire} {store after : PeerSessionStore}
  {conn shaken : PeerConn} {packets rest : List PacketBuffer}

theorem checkPeerId_ok {checked : PeerConn} (checks : conn.checkPeerId = some (.ok checked)) :
    checked = conn := by
  obtain ⟨peerId, _, checks⟩ := Option.bind_eq_some_iff.mp checks
  split at checks
  · cases checks
  cases checks
  rfl

theorem plainHandshakeAsServer_ok {recved : HandshakeRecved} {sent : Bool} {first : PacketBuffer}
    {answer : HandshakeRequest}
    (shakes : conn.plainHandshakeAsServer context wire recved sent first =
      some (.ok (shaken, answer))) :
    ∃ request, decodeHandshakePacket wire first = some (.ok request) ∧
      shaken.info = some request ∧ shaken.noiseHandshakeResult = conn.noiseHandshakeResult := by
  obtain ⟨_ | request, decodes, shakes⟩ := Option.bind_eq_some_iff.mp shakes
  · cases shakes
  dsimp only at shakes
  split at shakes
  · cases shakes
  obtain ⟨identity, _, shakes⟩ := Option.bind_eq_some_iff.mp shakes
  split at shakes
  · cases shakes
  obtain ⟨_ | checked, checks, shakes⟩ := Option.bind_eq_some_iff.mp shakes
  · cases shakes
  cases shakes
  rw [checkPeerId_ok checks]
  exact ⟨request, decodes, rfl, rfl⟩

/-- What a successful responder has done: a Noise handshake, or a plain one, which tells nothing
about a static key. -/
theorem doHandshakeAsServerExt_ok {recved : HandshakeRecved} {draws : ServerDraws}
    (shakes : conn.doHandshakeAsServerExt context wire recved store draws packets =
      some (.ok (shaken, rest), after)) :
    ∃ first packets', recvNextPeerManagerPacket none packets = some (first, packets') ∧
      ((context.secureMode = true ∧ ∃ noise myPeerId,
        (ServerExchange.mk wire recved conn.myPeerId draws first packets').respond context store =
          some (.ok (noise, myPeerId, rest), after) ∧
        shaken.info = some (buildHandshakeRsp noise) ∧
        shaken.noiseHandshakeResult = some noise) ∨
      ∃ request, decodeHandshakePacket wire first = some (.ok request) ∧
        shaken.info = some request ∧ shaken.noiseHandshakeResult = conn.noiseHandshakeResult) := by
  unfold doHandshakeAsServerExt at shakes
  split at shakes
  · cases shakes
  rename_i first packets' received
  refine ⟨first, packets', received, ?_⟩
  split at shakes
  · cases shakes
  split at shakes
  · rename_i header present noisy
    simp only [Bool.and_eq_true] at noisy
    obtain ⟨⟨_ | ⟨noise, myPeerId, rest'⟩, noiseStore⟩, responds, shakes⟩ :=
      Option.bind_eq_some_iff.mp shakes
    · cases shakes
    obtain ⟨_ | checked, checks, shakes⟩ := Option.bind_eq_some_iff.mp shakes
    · cases shakes
    cases shakes
    rw [checkPeerId_ok checks]
    exact .inl ⟨noisy.1, noise, myPeerId, responds, rfl, rfl⟩
  · split at shakes
    · obtain ⟨_ | plain, shook, shakes⟩ := Option.bind_eq_some_iff.mp shakes
      · cases shakes
      cases shakes
      exact .inr (plainHandshakeAsServer_ok shook)
    · cases shakes

/-- What a successful initiator has done. -/
theorem doHandshakeAsClient_ok {peerIdHint : Option PeerId} {draws : ConnContext.ClientDraws}
    (shakes : conn.doHandshakeAsClient context wire peerIdHint store draws packets =
      some (.ok (shaken, rest), after)) :
    (context.secureMode = true ∧ ∃ noise,
      context.doNoiseHandshakeAsClient wire peerIdHint store draws packets =
        some (.ok (noise, rest), after) ∧
      shaken.info = some (buildHandshakeRsp noise) ∧ shaken.noiseHandshakeResult = some noise) ∨
    (context.secureMode = false ∧ ∃ request,
      waitHandshakeLoop wire packets = some (.ok (request, rest)) ∧
      shaken.info = some request ∧ shaken.noiseHandshakeResult = conn.noiseHandshakeResult) := by
  unfold doHandshakeAsClient at shakes
  split at shakes
  · rename_i secure
    obtain ⟨⟨_ | ⟨noise, rest'⟩, noiseStore⟩, responds, shakes⟩ := Option.bind_eq_some_iff.mp shakes
    · cases shakes
    obtain ⟨_ | checked, checks, shakes⟩ := Option.bind_eq_some_iff.mp shakes
    · cases shakes
    cases shakes
    rw [checkPeerId_ok checks]
    exact .inl ⟨secure, noise, responds, rfl, rfl⟩
  · rename_i insecure
    split at shakes
    · cases shakes
    obtain ⟨_ | ⟨request, rest'⟩, waits, shakes⟩ := Option.bind_eq_some_iff.mp shakes
    · cases shakes
    obtain ⟨_ | checked, checks, shakes⟩ := Option.bind_eq_some_iff.mp shakes
    · cases shakes
    cases shakes
    rw [checkPeerId_ok checks]
    exact .inr ⟨by simpa using insecure, request, waits, rfl, rfl⟩

end PeerConn

open PeerConn

variable {context : ConnContext} {identity : NetworkIdentity} {draws : ClientDraws}
  {noise : NoiseHandshakeResult} {digest : NetworkSecretDigest}

theorem ConnContext.finishAsClient_ok {wire : Wire}
    {store after : PeerSessionStore} {msg1 : NoiseMsg1}
    {remotePeerId : PeerId} {msg2 : NoiseMsg2} {remoteStatic : Bytes}
    (finishes : context.finishAsClient wire store draws msg1 remotePeerId msg2 remoteStatic =
      (.ok noise, after)) :
    ∃ action level, context.checkMsg2 draws msg2 = .ok action ∧
      context.authenticateServer wire msg1 msg2 remoteStatic = .ok level ∧
      noise.remoteNetworkName = msg2.bNetworkName := by
  unfold finishAsClient at finishes
  split at finishes
  · cases finishes
  rename_i action checks
  split at finishes
  · cases finishes
  split at finishes
  · cases finishes
  rename_i level authenticates
  dsimp only at finishes
  split at finishes
  · cases finishes
  cases finishes
  exact ⟨action, level, checks, authenticates, rfl⟩

/-- What a successful initiator of a Noise handshake has read and checked. -/
theorem ConnContext.doNoiseHandshakeAsClient_ok {wire : Wire}
    {peerIdHint : Option PeerId} {store after : PeerSessionStore}
    {packets rest : List PacketBuffer}
    (shakes : context.doNoiseHandshakeAsClient wire peerIdHint store draws packets =
      some (.ok (noise, rest), after)) :
    ∃ packet payload msg2 remoteStatic action level,
      recvNextPeerManagerPacket (some .noiseHandshakeMsg2) packets = some (packet, rest) ∧
      packet.payload = some payload ∧
      wire.readMsg2 (context.ownMsg1 store peerIdHint draws).1 payload =
        some (msg2, remoteStatic) ∧
      context.checkMsg2 draws msg2 = .ok action ∧
      context.authenticateServer wire (context.ownMsg1 store peerIdHint draws).1 msg2 remoteStatic =
        .ok level ∧
      noise.remoteNetworkName = msg2.bNetworkName := by
  unfold doNoiseHandshakeAsClient at shakes
  generalize context.ownMsg1 store peerIdHint draws = own at shakes ⊢
  obtain ⟨msg1, ownStore⟩ := own
  dsimp only at shakes ⊢
  split at shakes
  · cases shakes
  split at shakes
  · cases shakes
  rename_i packet packets' received
  obtain ⟨header, present, shakes⟩ := Option.bind_eq_some_iff.mp shakes
  split at shakes
  · cases shakes
  obtain ⟨_ | ⟨msg2, remoteStatic⟩, decodes, shakes⟩ := Option.bind_eq_some_iff.mp shakes
  · cases shakes
  have framed := PacketBuffer.payload_of_header present
  obtain ⟨_, reads⟩ := decodeHandshakeMessage_ok present framed decodes
  cases finishes : context.finishAsClient wire ownStore draws msg1 header.fromPeerId msg2
      remoteStatic with
  | mk result finished =>
    simp only [finishes] at shakes
    cases result with
    | error error => cases shakes
    | ok result =>
      cases shakes
      obtain ⟨action, level, checks, authenticates, name⟩ := finishAsClient_ok finishes
      exact ⟨packet, _, msg2, remoteStatic, action, level, received, framed, reads, checks,
        authenticates, name⟩

/-! ## Secure mode -/

/-- The identity of a connection is what its handshake has told. -/
theorem PeerConn.getNetworkIdentity_eq {conn : PeerConn} {request : HandshakeRequest}
    (info : conn.info = some request) :
    conn.getNetworkIdentity =
      if long : request.networkSecretDigest.length = 32 then
        some { networkName := request.networkName, networkSecret := none
               networkSecretDigest := some ⟨request.networkSecretDigest, long⟩ }
      else none := by
  by_cases long : request.networkSecretDigest.length = 32 <;>
    simp [getNetworkIdentity, info, copyInto?, NetworkSecretDigest.zero, long]

theorem PeerConn.getNetworkIdentity_some {conn : PeerConn} {request : HandshakeRequest}
    (info : conn.info = some request)
    (identifies : conn.getNetworkIdentity = some identity) :
    identity.networkName = request.networkName ∧
      identity.networkSecretDigest.map (·.val) = some request.networkSecretDigest := by
  rw [getNetworkIdentity_eq info] at identifies
  split at identifies
  · cases identifies
    exact ⟨rfl, rfl⟩
  · cases identifies

/-- A remote of the own network has to say so. -/
theorem ConnContext.roleHint_of_checkMsg2 {msg2 : NoiseMsg2} {action : PeerSessionAction}
    (checks : context.checkMsg2 draws msg2 = .ok action)
    (same : msg2.bNetworkName = context.identity.networkName) : msg2.roleHint = 1 := by
  unfold checkMsg2 at checks
  split at checks
  · cases checks
  split at checks
  · cases checks
  split at checks
  · cases checks
  rename_i fine
  by_contra other
  exact fine ⟨same, other⟩

namespace PeerTunnel

variable {tunnel : PeerTunnel} {context : ConnContext} {myPeerId : PeerId}
  {store : PeerSessionStore} {conn : PeerConn}

/-- An admitted connection: its handshake, and what the last check has compared. -/
theorem add_localNetwork
    (added : tunnel.add context myPeerId store = some (.ok (.localNetwork conn))) :
    ∃ rest after identity,
      tunnel.handshake context myPeerId store = some (.ok (conn, rest), after) ∧
      conn.getNetworkIdentity = some identity ∧
      identity.networkName = context.identity.networkName ∧
      context.secureMode = !conn.noiseRemoteStaticPubkey.isEmpty ∧
      (context.identity.networkSecretDigestIsEmpty = false →
        identity.networkSecretDigestIsEmpty = false →
        context.identity.sameAs context.library identity = true) := by
  obtain ⟨⟨_ | ⟨conn', rest⟩, after⟩, shakes, added⟩ := Option.bind_eq_some_iff.mp added
  · cases added
  obtain ⟨identity, identifies, added⟩ := Option.bind_eq_some_iff.mp added
  split at added
  · rename_i name
    obtain ⟨_ | peerId, adds, added⟩ := Option.bind_eq_some_iff.mp added
    · cases added
    cases added
    refine ⟨rest, after, identity, shakes, identifies, name, ?_⟩
    simp only [addNewPeerConn, identifies, Option.bind_eq_bind, Option.bind_some] at adds
    split at adds
    · cases adds
    rename_i sameMode
    split at adds
    · cases adds
    rename_i identityOk
    refine ⟨?_, fun ownDigest peerDigest => ?_⟩
    · simpa only [bne_iff_ne, not_ne_iff] using sameMode
    · simpa [ConnContext.identityOk, ownDigest, peerDigest] using identityOk
  · cases added

/-- In secure mode an admitted remote is vouched for. -/
theorem credentials_of_secure (secret : context.identity.networkSecret.isSome = true)
    (secure : context.secureMode = true)
    (added : tunnel.add context myPeerId store = some (.ok (.localNetwork conn))) :
    tunnel.Authenticated context myPeerId store := by
  rw [Authenticated, if_pos secure]
  obtain ⟨rest, after, identity, shakes, identifies, name, mode, _⟩ := add_localNetwork added
  have noisy : conn.noiseHandshakeResult ≠ none := by
    intro plain
    simp [noiseRemoteStaticPubkey, plain, secure] at mode
  obtain ⟨role, wire, packets⟩ := tunnel
  cases role with
  | client peerIdHint draws =>
    rcases doHandshakeAsClient_ok shakes with
      ⟨_, noise, responds, info, _⟩ | ⟨insecure, _⟩
    · obtain ⟨packet, payload, msg2, remoteStatic, action, level, received, framed, reads, checks,
        authenticates, remoteName⟩ := doNoiseHandshakeAsClient_ok responds
      obtain ⟨named, _⟩ := getNetworkIdentity_some info identifies
      have same : msg2.bNetworkName = context.identity.networkName := by
        rw [← remoteName, ← name, named]
        rfl
      dsimp only at received reads
      refine ⟨msg2.secretProof32, wire.initiatorHash (context.ownMsg1 store peerIdHint draws).1,
        remoteStatic, by simp [credentials, received, framed, reads], ?_⟩
      rw [authenticateServer,
        if_neg fun lenient => lenient.1 (roleHint_of_checkMsg2 checks same),
        same] at authenticates
      exact (verifyRemoteAuth_ok authenticates).2 (.inl secret)
    · cases insecure.symm.trans secure
  | server recved draws =>
    obtain ⟨first, packets', received, ⟨_, noise, myPeerId', responds, info, _⟩ |
      ⟨_, _, _, unchanged⟩⟩ := doHandshakeAsServerExt_ok shakes
    · obtain ⟨named, _⟩ := getNetworkIdentity_some info identifies
      cases ServerExchange.ends_of_respond responds with
      | @accepted answer answered msg3 remoteStatic _ _ level answers receives binds
        authenticates =>
        have same : answer.msg1.aNetworkName = context.identity.networkName := by
          rw [← name, named]
          rfl
        have roleHint : answer.msg2.roleHint = 1 := by
          obtain ⟨_, _, told⟩ := ServerExchange.answered_of_ok answers
          exact told.roleHint.trans (roleHint_eq_one_iff.mpr same)
        rw [authenticateClient, if_pos roleHint, same] at authenticates
        dsimp only [new] at received answers receives
        refine ⟨msg3.secretProof32,
          (ServerExchange.mk wire recved myPeerId draws first packets').challenge answer,
            remoteStatic,
          by simp [credentials, received, answers, receives, Except.toOption], ?_⟩
        rcases (verifyRemoteAuth_ok authenticates).2 (.inr rfl) with
          verified | pinned | trusted
        · exact .inl verified
        · cases pinned
        · exact .inr (.inr trusted)
    · exact absurd unchanged noisy

/-! ## Without secure mode -/

/-- The plain handshake tells a connection what the remote has requested. -/
theorem request_of_insecure (insecure : context.secureMode = false) {rest : List PacketBuffer}
    {after : PeerSessionStore}
    (shakes : tunnel.handshake context myPeerId store = some (.ok (conn, rest), after)) :
    ∃ request, tunnel.request = some request ∧ conn.info = some request := by
  obtain ⟨role, wire, packets⟩ := tunnel
  cases role with
  | client peerIdHint draws =>
    rcases doHandshakeAsClient_ok shakes with ⟨secure, _⟩ | ⟨_, request, waits, info, _⟩
    · cases secure.symm.trans insecure
    · exact ⟨request, by simp [PeerTunnel.request, waits, Except.toOption], info⟩
  | server recved draws =>
    obtain ⟨first, packets', received, ⟨secure, _⟩ | ⟨request, decodes, info, _⟩⟩ :=
      doHandshakeAsServerExt_ok shakes
    · cases secure.symm.trans insecure
    · exact ⟨request, by simp [PeerTunnel.request, received, decodes, Except.toOption], info⟩

/-- The digest of the remote is not the one of a credential node, and where the node has only the
secret and not its digest, it is the right one anyway. -/
def DigestCompared (tunnel : PeerTunnel) (context : ConnContext) : Prop :=
  ∃ request, tunnel.request = some request ∧
    request.networkSecretDigest ≠ NetworkSecretDigest.zero.val ∧
    (context.identity.networkSecretDigest = none → ∀ digest,
      context.identity.secretDigest context.library = some digest →
      request.networkSecretDigest = digest.val)

end PeerTunnel

theorem NetworkIdentity.secretDigest_of_present (library : SecretLibrary)
    (present : identity.networkSecretDigest = some digest) :
    identity.secretDigest library = some digest := by
  simp [secretDigest, present]

theorem NetworkIdentity.networkSecretDigestIsEmpty_eq_false
    (present : identity.networkSecretDigest = some digest)
    (nonzero : digest.val ≠ NetworkSecretDigest.zero.val) :
    identity.networkSecretDigestIsEmpty = false := by
  by_contra empty
  have empty : identity.networkSecretDigestIsEmpty = true := by simpa using empty
  rw [networkSecretDigestIsEmpty, present, Option.all_some, List.all_eq_true] at empty
  refine nonzero (List.eq_replicate_iff.mpr ⟨digest.property, fun byte member => ?_⟩)
  simpa using empty byte member

/-- An admitted remote is authenticated exactly when the node uses secure mode, or the remote has
presented a digest that was compared with the one of the secret. -/
theorem admitted_remote_authenticated_iff {tunnel : PeerTunnel} {context : ConnContext}
    {myPeerId : PeerId} {store : PeerSessionStore} {conn : PeerConn}
    (secret : context.identity.networkSecret.isSome = true)
    (nonzero : context.identity.secretDigest context.library ≠ some NetworkSecretDigest.zero)
    (added : tunnel.add context myPeerId store = some (.ok (.localNetwork conn))) :
    tunnel.Authenticated context myPeerId store ↔
      (context.secureMode = true ∨ tunnel.DigestCompared context) := by
  cases secure : context.secureMode with
  | true => simpa using credentials_of_secure secret secure added
  | false =>
    simp only [Authenticated, secure, Bool.false_eq_true, if_false, false_or]
    obtain ⟨rest, after, identity, shakes, identifies, name, _, compared⟩ :=
      add_localNetwork added
    obtain ⟨request, requested, info⟩ := request_of_insecure secure shakes
    obtain ⟨_, presented⟩ := getNetworkIdentity_some info identifies
    constructor
    · rintro ⟨request', digest, requested', own, same⟩
      refine ⟨request', requested', fun zero => nonzero ?_, fun _ digest' own' => ?_⟩
      · rw [own, Subtype.ext (same.symm.trans zero)]
      · cases own.symm.trans own'
        exact same
    · rintro ⟨request', requested', notZero, derived⟩
      cases requested.symm.trans requested'
      cases field : context.identity.networkSecretDigest with
      | none =>
        obtain ⟨text, known⟩ := Option.isSome_iff_exists.mp secret
        have own : context.identity.secretDigest context.library =
            some (context.library.networkSecretDigest context.identity.networkName text) := by
          simp [NetworkIdentity.secretDigest, field, known]
        exact ⟨request, _, requested, own, derived field _ own⟩
      | some digest =>
        have own := NetworkIdentity.secretDigest_of_present context.library field
        obtain ⟨theirs, shown, bytes⟩ := Option.map_eq_some_iff.mp presented
        have ownFull : context.identity.networkSecretDigestIsEmpty = false :=
          NetworkIdentity.networkSecretDigestIsEmpty_eq_false field
            fun zero => nonzero (by rw [own, Subtype.ext zero])
        have peerFull : identity.networkSecretDigestIsEmpty = false :=
          NetworkIdentity.networkSecretDigestIsEmpty_eq_false shown (by rwa [bytes])
        have same := compared ownFull peerFull
        simp only [NetworkIdentity.sameAs, Bool.and_eq_true, beq_iff_eq, own,
          NetworkIdentity.secretDigest_of_present context.library shown,
          Option.some.injEq] at same
        exact ⟨request, digest, requested, own, by rw [← bytes, same.2]⟩

/-! The node of network `net` without secure mode, and a remote that presents a digest. -/

def plainNode : ConnContext := { sampleNode with secureMode := false }

def plainTunnel (role : Role) (digest : NetworkSecretDigest) : PeerTunnel where
  role := role
  wire :=
    { (sampleExchange "net" trustedKey fun _ => none).wire with
      readHandshake := fun _ => some
        { myPeerId := 7, features := [], networkName := "net"
          networkSecretDigest := digest.val } }
  packets := [handshakePacket .handShake]

def serverRole : Role :=
  .server (fun myPeerId _ => .ok myPeerId)
    { newRootKey := 4, bConnId := 2, nowMs := 0, sent := true }

def sampleRoles : List Role :=
  [.client none { aConnId := 1, nowMs := 0, msg1Sent := true, msg3Sent := true }, serverRole]

/-- A remote with the trusted key in secure mode. -/
def trustedTunnel : PeerTunnel where
  role := serverRole
  wire := (sampleExchange "net" trustedKey fun _ => none).wire
  packets := [handshakePacket .noiseHandshakeMsg1, handshakePacket .noiseHandshakeMsg3]

def Admission.isLocal : Admission → Bool
  | .localNetwork _ => true
  | .foreignNetwork _ => false

theorem PeerTunnel.exists_localNetwork {tunnel : PeerTunnel}
    {myPeerId : PeerId} {store : PeerSessionStore}
    (admits : (tunnel.add context myPeerId store).any (·.toOption.any (·.isLocal)) = true) :
    ∃ conn, tunnel.add context myPeerId store = some (.ok (.localNetwork conn)) := by
  obtain ⟨result, added, admits⟩ := (Option.any_eq_true _ _).mp admits
  cases result with
  | error error => cases admits
  | ok admission =>
    cases admission with
    | localNetwork conn => exact ⟨conn, added⟩
    | foreignNetwork conn => cases admits

/-- A remote that knows the name of the network and presents a digest of zeros is admitted,
whichever side the node takes. -/
theorem zero_digest_admitted :
    plainNode.identity.secretDigest plainNode.library ≠ some .zero ∧
    ∀ role ∈ sampleRoles,
      (∃ conn, (plainTunnel role .zero).add plainNode 3 emptyStore =
        some (.ok (.localNetwork conn))) ∧
      ¬(plainTunnel role .zero).Authenticated plainNode 3 emptyStore := by
  have nonzero : plainNode.identity.secretDigest plainNode.library ≠ some .zero := by decide +kernel
  refine ⟨nonzero, fun role member => ?_⟩
  have runs : ((plainTunnel role .zero).add plainNode 3 emptyStore).any
        (·.toOption.any (·.isLocal)) = true ∧
      (plainTunnel role .zero).request.map (·.networkSecretDigest) =
        some NetworkSecretDigest.zero.val := by
    simp only [sampleRoles, List.mem_cons, List.not_mem_nil, or_false] at member
    rcases member with rfl | rfl
    all_goals decide +kernel
  obtain ⟨admits, presented⟩ := runs
  refine ⟨exists_localNetwork admits, ?_⟩
  rintro ⟨request, digest, requested, own, same⟩
  rw [requested, Option.map_some, Option.some.injEq] at presented
  exact nonzero (by rw [own, Subtype.ext (same.symm.trans presented)])

/-- The remote with the right digest is authenticated, and so is the one with a trusted key in
secure mode. -/
theorem sample_remotes_authenticated :
    (∀ role ∈ sampleRoles,
      (plainTunnel role (sampleSecrets.networkSecretDigest "net" "secret")).Authenticated plainNode
        3 emptyStore) ∧
    trustedTunnel.Authenticated sampleNode 3 emptyStore := by
  constructor
  · intro role member
    have runs : ((plainTunnel role (sampleSecrets.networkSecretDigest "net" "secret")).add plainNode
          3 emptyStore).any (·.toOption.any (·.isLocal)) = true ∧
        (plainTunnel role (sampleSecrets.networkSecretDigest "net" "secret")).request.map
          (·.networkSecretDigest) = some (List.replicate 32 1) := by
      simp only [sampleRoles, List.mem_cons, List.not_mem_nil, or_false] at member
      rcases member with rfl | rfl
      all_goals decide +kernel
    obtain ⟨conn, added⟩ := exists_localNetwork runs.1
    obtain ⟨request, requested, digest⟩ := Option.map_eq_some_iff.mp runs.2
    refine (admitted_remote_authenticated_iff (by decide) (by decide +kernel) added).mpr (.inr ?_)
    exact ⟨request, requested, by rw [digest]; decide, fun missing => by cases missing⟩
  · have runs : (trustedTunnel.add sampleNode 3 emptyStore).any (·.toOption.any (·.isLocal)) =
        true := by
      decide +kernel
    obtain ⟨conn, added⟩ := exists_localNetwork runs
    exact (admitted_remote_authenticated_iff (by decide) (by decide +kernel) added).mpr (.inl rfl)

end EasyTier.Peers
