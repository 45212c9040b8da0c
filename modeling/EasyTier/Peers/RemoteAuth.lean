import EasyTier.Peers.Handshake

/-! # What a responder concludes about an initiator

The responder of a Noise handshake computes two things about the initiator: how well it is
authenticated, and whether it is an admin or the holder of a credential. The first asks whether the
proof verifies, the second also takes the mere presence of a proof for an admin's.
-/

namespace EasyTier.Peers

open Data Packet

/-! ## Exchanges -/

theorem decodeHandshakeMessage_ok {Message : Type} {expected : PacketType}
    {read : Bytes → Option Message} {packet : PacketBuffer} {header : PeerManagerHeader}
    {payload : Bytes} {message : Message} (present : packet.peerManagerHeader = some header)
    (framed : packet.payload = some payload)
    (decodes : decodeHandshakeMessage expected read packet = some (.ok message)) :
    header.hasType expected = true ∧ read payload = some message := by
  unfold decodeHandshakeMessage at decodes
  simp only [present, framed, Option.map_some] at decodes
  cases typed : header.hasType expected with
  | false => simp [typed] at decodes
  | true =>
    cases reads : read payload with
    | none => simp [typed, reads] at decodes
    | some found =>
      simp only [typed, reads] at decodes
      cases decodes
      exact ⟨rfl, rfl⟩

/-- One exchange as its responder sees it: what the remote sends and how it is read, and what the
responder draws. -/
structure ServerExchange where
  wire : Wire
  recved : HandshakeRecved
  myPeerId : PeerId
  draws : ServerDraws
  first : PacketBuffer
  packets : List PacketBuffer

namespace ServerExchange

variable (exchange : ServerExchange) (context : ConnContext) (store : PeerSessionStore)

def answer : Option (Except ConnError Msg1Answer × PeerSessionStore) :=
  context.answerMsg1 exchange.wire exchange.recved exchange.myPeerId store exchange.draws
    exchange.first

def third (answer : Msg1Answer) :
    Option (Except ConnError (NoiseMsg3 × Bytes × List PacketBuffer)) :=
  ConnContext.awaitMsg3 exchange.wire answer exchange.draws exchange.packets

def respond : Option (Except ConnError (NoiseHandshakeResult × PeerId × List PacketBuffer) ×
    PeerSessionStore) :=
  context.doNoiseHandshakeAsServer exchange.wire exchange.recved exchange.myPeerId store
    exchange.draws exchange.first exchange.packets

/-- The challenge that the proof of the third message is for. -/
def challenge (answer : Msg1Answer) : Bytes :=
  exchange.wire.hashAfterMsg2 answer.msg1Payload answer.msg2

/-- The proof of the third message is the one of the network secret. -/
def verifies (answer : Msg1Answer) (msg3 : NoiseMsg3) : Bool :=
  context.proofVerifies msg3.secretProof32 (exchange.challenge answer)

/-- What a finished exchange went through. -/
inductive Ends : Except ConnError (NoiseHandshakeResult × PeerId × List PacketBuffer) →
    PeerSessionStore → Prop
  | refused {error after} (answers : exchange.answer context store = some (.error error, after)) :
    Ends (.error error) after
  | aborted {answer answered error}
    (answers : exchange.answer context store = some (.ok answer, answered))
    (receives : exchange.third answer = some (.error error)) : Ends (.error error) answered
  | mismatched {answer answered msg3 remoteStatic rest error after}
    (answers : exchange.answer context store = some (.ok answer, answered))
    (receives : exchange.third answer = some (.ok (msg3, remoteStatic, rest)))
    (binds : ConnContext.bindStaticKey answered answer.key remoteStatic = (.error error, after)) :
    Ends (.error error) after
  | unauthenticated {answer answered msg3 remoteStatic rest after error}
    (answers : exchange.answer context store = some (.ok answer, answered))
    (receives : exchange.third answer = some (.ok (msg3, remoteStatic, rest)))
    (binds : ConnContext.bindStaticKey answered answer.key remoteStatic = (.ok (), after))
    (authenticates :
      context.authenticateClient exchange.wire answer msg3 remoteStatic = .error error) :
    Ends (.error error) after
  | accepted {answer answered msg3 remoteStatic rest after level}
    (answers : exchange.answer context store = some (.ok answer, answered))
    (receives : exchange.third answer = some (.ok (msg3, remoteStatic, rest)))
    (binds : ConnContext.bindStaticKey answered answer.key remoteStatic = (.ok (), after))
    (authenticates :
      context.authenticateClient exchange.wire answer msg3 remoteStatic = .ok level) :
    Ends (.ok (context.serverResult exchange.wire answer msg3 remoteStatic level, answer.myPeerId,
      rest)) after

variable {exchange context store} {after : PeerSessionStore}

theorem ends_of_respond {result : Except ConnError (NoiseHandshakeResult × PeerId ×
    List PacketBuffer)}
    (responds : exchange.respond context store = some (result, after)) :
    Ends exchange context store result after := by
  obtain ⟨⟨answered, answeredStore⟩, answers, responds⟩ := Option.bind_eq_some_iff.mp responds
  cases answered with
  | error error =>
    cases responds
    exact .refused answers
  | ok answer =>
    obtain ⟨received, receives, responds⟩ := Option.bind_eq_some_iff.mp responds
    cases received with
    | error error =>
      cases responds
      exact .aborted answers receives
    | ok received =>
      obtain ⟨msg3, remoteStatic, rest⟩ := received
      dsimp only at responds
      cases binds : ConnContext.bindStaticKey answeredStore answer.key remoteStatic with
      | mk bound bindStore =>
        rw [binds] at responds
        cases bound with
        | error error =>
          cases responds
          exact .mismatched answers receives binds
        | ok _ =>
          cases authenticates :
              context.authenticateClient exchange.wire answer msg3 remoteStatic with
          | error error =>
            rw [authenticates] at responds
            cases responds
            exact .unauthenticated answers receives binds authenticates
          | ok level =>
            rw [authenticates] at responds
            cases responds
            exact .accepted answers receives binds authenticates

theorem respond_of_ends {finished : NoiseHandshakeResult × PeerId × List PacketBuffer}
    (ends : Ends exchange context store (.ok finished) after) :
    exchange.respond context store = some (.ok finished, after) := by
  cases ends with
  | accepted answers receives binds authenticates =>
    unfold answer at answers
    unfold third at receives
    unfold respond ConnContext.doNoiseHandshakeAsServer
    simp only [answers, receives, binds, authenticates, Option.bind_eq_bind, Option.bind_some]
    rfl

/-- An answer was given: the first message was read and accepted, and the store settled a
session. -/
structure Answered (exchange : ServerExchange) (context : ConnContext) (store : PeerSessionStore)
    (header : PeerManagerHeader) (answer : Msg1Answer) (upserted : UpsertResponderSessionReturn)
    (after : PeerSessionStore) : Prop where
  present : exchange.first.peerManagerHeader = some header
  typed : header.hasType .noiseHandshakeMsg1 = true
  payload : exchange.first.payload = some answer.msg1Payload
  reads : exchange.wire.readMsg1 answer.msg1Payload = some answer.msg1
  accepts : exchange.recved exchange.myPeerId answer.msg1.aNetworkName = .ok answer.myPeerId
  source : answer.remotePeerId = header.fromPeerId
  roleHint : answer.msg2.roleHint =
    (context.ownProof exchange.wire answer.msg1 answer.msg1Payload).1
  upserts : store.upsertResponderSession answer.key answer.msg1.aSessionGeneration
    context.encryptionAlgorithm answer.msg1.clientEncryptionAlgorithm none
    exchange.draws.newRootKey exchange.draws.nowMs = (.ok upserted, after)

/-- A first message is refused and changes nothing, or it is answered. -/
theorem answer_cases {result : Except ConnError Msg1Answer}
    (answers : exchange.answer context store = some (result, after)) :
    (∃ error, result = .error error ∧ after = store) ∨
    ∃ header answer upserted, result = .ok answer ∧
      Answered exchange context store header answer upserted after := by
  obtain ⟨header, present, answers⟩ := Option.bind_eq_some_iff.mp answers
  obtain ⟨payload, framed, answers⟩ := Option.bind_eq_some_iff.mp answers
  obtain ⟨decoded, decodes, answers⟩ := Option.bind_eq_some_iff.mp answers
  cases decoded with
  | error error =>
    cases answers
    exact .inl ⟨error, rfl, rfl⟩
  | ok msg1 =>
    obtain ⟨typed, reads⟩ := decodeHandshakeMessage_ok present framed decodes
    dsimp only at answers
    cases accepts : exchange.recved exchange.myPeerId msg1.aNetworkName with
    | error error =>
      rw [accepts] at answers
      cases answers
      exact .inl ⟨error, rfl, rfl⟩
    | ok myPeerId =>
      rw [accepts] at answers
      rcases store.upsertResponderSession_cases
          (ResponderContext.directKey msg1.toPeerConnNoiseMsg1 header.fromPeerId)
          msg1.aSessionGeneration context.encryptionAlgorithm msg1.clientEncryptionAlgorithm none
          exchange.draws.newRootKey exchange.draws.nowMs with
        ⟨error, upserts⟩ | ⟨_, upserts⟩ | ⟨_, _, _, _, _, upserts⟩
      · rw [upserts] at answers
        cases answers
        exact .inl ⟨_, rfl, rfl⟩
      all_goals
        rw [upserts] at answers
        cases answers
        exact .inr ⟨header, _, _, rfl, ⟨present, typed, framed, reads, accepts, rfl, rfl, upserts⟩⟩

theorem answered_of_ok {answer : Msg1Answer}
    (answers : exchange.answer context store = some (.ok answer, after)) :
    ∃ header upserted, Answered exchange context store header answer upserted after := by
  rcases answer_cases answers with ⟨_, failed, _⟩ | ⟨header, _, upserted, ok, told⟩
  · cases failed
  cases ok
  exact ⟨header, upserted, told⟩

end ServerExchange

/-! ## Levels and types -/

namespace ConnContext

variable {context : ConnContext}

/-- The secret counts as confirmed exactly when the proof verifies, and a node that has the secret,
or that is the responder, asks for the proof, the pinned key or a trusted one. -/
theorem verifyRemoteAuth_ok {proof : Option Bytes} {handshakeHash remotePubkey : Bytes}
    {pinnedPubkey : Option Bytes} {hasNetworkSecret isInitiator : Bool}
    {remoteNetworkName : String} {level : SecureAuthLevel}
    (authenticates : context.verifyRemoteAuth proof handshakeHash remotePubkey pinnedPubkey
      hasNetworkSecret isInitiator remoteNetworkName = .ok level) :
    (level = .networkSecretConfirmed ↔ context.proofVerifies proof handshakeHash = true) ∧
      (hasNetworkSecret = true ∨ isInitiator = false →
        context.proofVerifies proof handshakeHash = true ∨ pinnedPubkey = some remotePubkey ∨
          context.isPubkeyTrusted remotePubkey remoteNetworkName = true) := by
  unfold verifyRemoteAuth at authenticates
  split at authenticates
  · rename_i verified
    cases authenticates
    exact ⟨iff_of_true rfl verified, fun _ => .inl verified⟩
  rename_i unverified
  split at authenticates
  · split at authenticates
    · cases authenticates
    rename_i same
    cases authenticates
    exact ⟨iff_of_false (by decide) unverified,
      fun _ => .inr (.inl (congrArg some (not_ne_iff.mp same)))⟩
  · split at authenticates
    · rename_i trusted
      cases authenticates
      exact ⟨iff_of_false (by decide) unverified, fun _ => .inr (.inr trusted)⟩
    split at authenticates
    · rename_i lenient
      cases authenticates
      refine ⟨iff_of_false (by decide) unverified, fun strict => ?_⟩
      rcases strict with secret | responder
      · simp [secret] at lenient
      · simp [responder] at lenient
    · cases authenticates

theorem roleHint_eq_one_iff {wire : Wire} {msg1 : NoiseMsg1} {msg1Payload : Bytes} :
    (context.ownProof wire msg1 msg1Payload).1 = 1 ↔
      msg1.aNetworkName = context.identity.networkName := by
  unfold ownProof
  split <;> simp [*]

end ConnContext

open ConnContext

/-! ## Admins and credentials -/

/-- The type is that of an admin exactly when the proof verifies, which is exactly when the secret
is confirmed, and that of a credential otherwise. -/
def NoiseHandshakeResult.ClassifiedBy (result : NoiseHandshakeResult) (verified : Bool) : Prop :=
  (result.peerIdentityType = .admin ↔ verified = true) ∧
    (result.secureAuthLevel = .networkSecretConfirmed ↔ verified = true) ∧
    (verified = false → result.peerIdentityType = .credential)

instance (result : NoiseHandshakeResult) (verified : Bool) :
    Decidable (result.ClassifiedBy verified) :=
  inferInstanceAs (Decidable (_ ∧ _ ∧ _))

/-- What the responder concludes in its own network, from whether the proof verifies and whether
there is one. -/
theorem serverResult_classifiedBy_iff {context : ConnContext} {exchange : ServerExchange}
    {answer : Msg1Answer} {msg3 : NoiseMsg3} {remoteStatic : Bytes} {level : SecureAuthLevel}
    (sameNetwork : answer.msg1.aNetworkName = context.identity.networkName)
    (roleHint : answer.msg2.roleHint = 1)
    (authenticates :
      context.authenticateClient exchange.wire answer msg3 remoteStatic = .ok level) :
    (context.serverResult exchange.wire answer msg3 remoteStatic level).ClassifiedBy
        (exchange.verifies context answer msg3) ↔
      (msg3.secretProof32 = none ∨ exchange.verifies context answer msg3 = true) := by
  rw [authenticateClient, if_pos roleHint] at authenticates
  have confirmed : level = .networkSecretConfirmed ↔
      exchange.verifies context answer msg3 = true :=
    (verifyRemoteAuth_ok authenticates).1
  have type : (context.serverResult exchange.wire answer msg3 remoteStatic level).peerIdentityType =
      if level = .networkSecretConfirmed ∨ msg3.secretProof32.isSome = true then .admin
      else .credential := by
    simp [serverResult, classifyRemoteIdentity, roleHint, sameNetwork]
  unfold NoiseHandshakeResult.ClassifiedBy
  rw [type]
  cases verified : exchange.verifies context answer msg3 with
  | true => simp [serverResult, confirmed, verified]
  | false =>
    cases proof : msg3.secretProof32 with
    | none => simp [serverResult, confirmed, verified]
    | some proof => simp [serverResult, confirmed, verified]

/-- An initiator of the own network is classified by its proof exactly when it presents none or one
that verifies. -/
theorem admin_exactly_when_proof_verifies {context : ConnContext} {exchange : ServerExchange}
    {store answered after : PeerSessionStore} {answer : Msg1Answer} {msg3 : NoiseMsg3}
    {remoteStatic : Bytes} {rest rest' : List PacketBuffer} {result : NoiseHandshakeResult}
    {myPeerId : PeerId} (answers : exchange.answer context store = some (.ok answer, answered))
    (sameNetwork : answer.msg1.aNetworkName = context.identity.networkName)
    (receives : exchange.third answer = some (.ok (msg3, remoteStatic, rest)))
    (responds : exchange.respond context store = some (.ok (result, myPeerId, rest'), after)) :
    result.ClassifiedBy (exchange.verifies context answer msg3) ↔
      (msg3.secretProof32 = none ∨ exchange.verifies context answer msg3 = true) := by
  cases ServerExchange.ends_of_respond responds with
  | accepted answers' receives' binds authenticates =>
    cases answers.symm.trans answers'
    cases receives.symm.trans receives'
    obtain ⟨_, _, told⟩ := ServerExchange.answered_of_ok answers
    refine serverResult_classifiedBy_iff sameNetwork ?_ authenticates
    exact told.roleHint.trans (roleHint_eq_one_iff.mpr sameNetwork)

theorem exists_of_ok {ε α β : Type} {run : Option (Except ε α × β)} {value : α}
    (ok : run.bind (·.1.toOption) = some value) : ∃ after, run = some (.ok value, after) := by
  obtain ⟨⟨result, after⟩, ran, ok⟩ := Option.bind_eq_some_iff.mp ok
  cases result with
  | error error => cases ok
  | ok result =>
    cases ok
    exact ⟨after, ran⟩

/-! A node of network `net` that trusts one key, and an initiator that shows that key. -/

def sampleSecrets : SecretLibrary where
  networkSecretDigest _ _ := ⟨List.replicate 32 1, rfl⟩
  secretProof secret challenge := utf8Bytes secret ++ challenge

def trustedKey : Bytes := List.replicate 32 9

def sampleNode : ConnContext where
  library := sampleSecrets
  identity := NetworkIdentity.new sampleSecrets "net" "secret"
  secureMode := true
  localStaticPubkey := List.replicate 32 5
  encryptionAlgorithm := "aes-gcm"
  hmacSecretDigest := false
  trustedKeys pubkey _ := pubkey = trustedKey
  ownCredentials _ := false
  pinnedRemoteStaticPubkey := none

/-- A packet from peer 7 without a payload. -/
def handshakePacket (packetType : PacketType) : PacketBuffer :=
  ⟨[7, 0, 0, 0, 0, 0, 0, 0, packetType.code, 0, 1, 0, 0, 0, 0, 0], .dummyTunnel⟩

/-- An exchange with peer 7, which shows a key and presents a proof for the challenge. -/
def sampleExchange (networkName : String) (remoteStatic : Bytes)
    (prove : Bytes → Option Bytes) : ServerExchange where
  wire :=
    { readHandshake := fun _ => none
      readMsg1 := fun _ => some
        { aNetworkName := networkName, aSessionGeneration := none
          clientEncryptionAlgorithm := "aes-gcm", aConnId := some 1, features := [] }
      hashAfterMsg1 := fun _ => [1]
      hashAfterMsg2 := fun _ _ => [2]
      readMsg3 := fun _ msg2 _ => some
        ({ aConnIdEcho := some 1, bConnIdEcho := msg2.bConnId, secretProof32 := prove [2]
           secretDigest := List.replicate 32 0 }, remoteStatic)
      initiatorHash := fun _ => [1]
      readMsg2 := fun _ _ => none }
  recved myPeerId _ := .ok myPeerId
  myPeerId := 3
  draws := { newRootKey := 4, bConnId := 2, nowMs := 0, sent := true }
  first := handshakePacket .noiseHandshakeMsg1
  packets := [handshakePacket .noiseHandshakeMsg3]

def emptyStore : PeerSessionStore := fun _ => none

/-- The holder of a trusted key that presents a proof of nothing passes for an admin of the network,
though the proof does not verify for the challenge it was presented for. -/
theorem bogus_proof_makes_admin :
    ((sampleExchange "net" trustedKey fun _ => some []).respond sampleNode emptyStore).any
        (fun (result, _) => result.toOption.any fun (result, _, _) =>
          result.remoteNetworkName = sampleNode.identity.networkName ∧
          result.clientSecretProof = some ([2], []) ∧
          sampleNode.proofVerifies (some []) [2] = false ∧
          result.secureAuthLevel = .peerVerified ∧ result.peerIdentityType = .admin) = true := by
  decide +kernel

/-- The answer a new peer 7 of network `net` gets. -/
def sampleAnswer : Msg1Answer where
  remotePeerId := 7
  myPeerId := 3
  msg1 :=
    { aNetworkName := "net", aSessionGeneration := none
      clientEncryptionAlgorithm := "aes-gcm", aConnId := some 1, features := [] }
  msg1Payload := []
  msg2 :=
    { bNetworkName := "net", roleHint := 1, action := some .create, bSessionGeneration := 1
      rootKey32 := some 4, initialEpoch := 0, bConnId := some 2, aConnIdEcho := some 1
      secretProof32 := some (utf8Bytes "secret" ++ [1]), serverEncryptionAlgorithm := "aes-gcm"
      features := ["liveness-echo-v1"] }

/-- The holder of a trusted key that presents no proof is a credential, and the holder of the secret
an admin. -/
theorem honest_initiators_classified :
    sampleNode.proofVerifies (sampleNode.secretProof [2]) [2] = true ∧
    ∀ prove ∈ [fun _ => none, sampleNode.secretProof], ∃ result myPeerId rest after,
      (sampleExchange "net" trustedKey prove).respond sampleNode emptyStore =
        some (.ok (result, myPeerId, rest), after) ∧
      result.ClassifiedBy (sampleNode.proofVerifies (prove [2]) [2]) := by
  refine ⟨by decide +kernel, fun prove honest => ?_⟩
  simp only [List.mem_cons, List.not_mem_nil, or_false] at honest
  have runs : ((sampleExchange "net" trustedKey prove).answer sampleNode emptyStore).bind
        (·.1.toOption) = some sampleAnswer ∧
      (((sampleExchange "net" trustedKey prove).respond sampleNode emptyStore).bind
        (·.1.toOption)).isSome = true ∧
      (prove [2] = none ∨ sampleNode.proofVerifies (prove [2]) [2] = true) := by
    rcases honest with rfl | rfl
    all_goals decide +kernel
  obtain ⟨answering, accepting, proof⟩ := runs
  obtain ⟨answered, answers⟩ := exists_of_ok answering
  obtain ⟨⟨result, myPeerId, rest⟩, accepted⟩ := Option.isSome_iff_exists.mp accepting
  obtain ⟨after, responds⟩ := exists_of_ok accepted
  have receives : (sampleExchange "net" trustedKey prove).third sampleAnswer = some (.ok
      (⟨some 1, some 2, prove [2], List.replicate 32 0⟩, trustedKey, [])) := rfl
  exact ⟨result, myPeerId, rest, after, responds,
    (admin_exactly_when_proof_verifies answers rfl receives responds).mpr proof⟩

end EasyTier.Peers
