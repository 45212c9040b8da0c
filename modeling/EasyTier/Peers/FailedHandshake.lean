import EasyTier.Peers.RemoteAuth

/-! # What a failed handshake leaves behind

The responder settles a session on the first message and records the initiator's static key on it
before the initiator is authenticated. A handshake that fails may therefore have created a session
under ciphers nobody else wants, or bound a session to a key nobody has vouched for. Both turn away
a later initiator that would have been accepted.
-/

namespace EasyTier.Peers

open Data Packet PeerSessionStore

/-! ## Genuine peers -/

/-- An initiator that follows the protocol. -/
structure GenuinePeer where
  msg1 : NoiseMsg1
  networkSecret : Option String
  staticPubkey : Bytes
  secretDigest : Bytes

namespace GenuinePeer

/-- Its answer to a second message. -/
def msg3 (peer : GenuinePeer) (library : SecretLibrary) (challenge : Bytes) (msg2 : NoiseMsg2) :
    NoiseMsg3 :=
  { aConnIdEcho := peer.msg1.aConnId
    bConnIdEcho := msg2.bConnId
    secretProof32 := peer.networkSecret.map fun secret => library.secretProof secret challenge
    secretDigest := peer.secretDigest }

/-- The remote of an exchange is the peer: the first packet is read as its first message, and the
next one, whatever it has been answered, as its third. -/
structure Conducts (peer : GenuinePeer) (library : SecretLibrary) (exchange : ServerExchange)
    (first third : Bytes) (packet : PacketBuffer) (rest : List PacketBuffer) : Prop where
  firstPayload : exchange.first.payload = some first
  readsFirst : exchange.wire.readMsg1 first = some peer.msg1
  next : recvNextPeerManagerPacket (some .noiseHandshakeMsg3) exchange.packets = some (packet, rest)
  thirdPayload : packet.payload = some third
  readsThird : ∀ msg2, exchange.wire.readMsg3 first msg2 third =
    some (peer.msg3 library (exchange.wire.hashAfterMsg2 first msg2) msg2, peer.staticPubkey)

end GenuinePeer

/-- A context of the same node; what it trusts may have changed. -/
structure ConnContext.SameNode (context later : ConnContext) : Prop where
  library : later.library = context.library
  identity : later.identity = context.identity
  encryptionAlgorithm : later.encryptionAlgorithm = context.encryptionAlgorithm

open ConnContext

namespace ServerExchange

/-- The handshake succeeds. -/
def accepted (exchange : ServerExchange) (context : ConnContext) (store : PeerSessionStore) :
    Bool :=
  (exchange.respond context store).any (·.1.toBool)

end ServerExchange

/-- A change of the store that disturbs no genuine peer: every session is kept with its recorded
key, no other key is recorded, and whoever would have been accepted before is accepted
afterwards. -/
structure DisturbsNobody (context : ConnContext) (before after : PeerSessionStore) : Prop where
  keeps : ∀ key session, before key = some session → ∃ kept, after key = some kept ∧
    kept.datagram = session.datagram ∧ kept.peerStaticPubkey = session.peerStaticPubkey
  recordsNoKey : ∀ key session pubkey, after key = some session →
    session.peerStaticPubkey = some pubkey →
    ∃ earlier, before key = some earlier ∧ earlier.peerStaticPubkey = some pubkey
  acceptsAlike : ∀ (later : ConnContext) (peer : GenuinePeer) (exchange : ServerExchange)
    (first third : Bytes) (packet : PacketBuffer) (rest : List PacketBuffer),
    context.SameNode later → peer.Conducts later.library exchange first third packet rest →
    exchange.accepted later before = true → exchange.accepted later after = true

theorem DisturbsNobody.refl (context : ConnContext) (store : PeerSessionStore) :
    DisturbsNobody context store store where
  keeps _ session found := ⟨session, found, rfl, rfl⟩
  recordsNoKey _ session _ found recorded := ⟨session, found, recorded⟩
  acceptsAlike _ _ _ _ _ _ _ _ _ accepted := accepted

/-- If the first message is answered at all, there is a valid session for the network and the peer
it names, and that session has a recorded key or the remote does not get as far as showing one. -/
def ServerExchange.LeavesNoTrace (exchange : ServerExchange) (context : ConnContext)
    (before : PeerSessionStore) : Prop :=
  ∀ answer answered, exchange.answer context before = some (.ok answer, answered) →
    ∃ session, before.valid? answer.key = some session ∧
      (session.peerStaticPubkey = none → ∀ msg3 remoteStatic rest,
        exchange.third answer = some (.ok (msg3, remoteStatic, rest)) → remoteStatic.length ≠ 32)

/-! ## Exchanges that change nothing -/

variable {session : PeerSession} {context : ConnContext} {store after : PeerSessionStore}
  {answer : Msg1Answer} {error : ConnError} {exchange : ServerExchange}

/-- A valid session is answered from as it is. -/
theorem ServerExchange.Answered.eq_of_valid
    {header : PeerManagerHeader} {upserted : UpsertResponderSessionReturn}
    (answered : Answered exchange context store header answer upserted after)
    (valid : store.valid? answer.key = some session) : after = store := by
  rcases store.upsertResponderSession_cases answer.key answer.msg1.aSessionGeneration
      context.encryptionAlgorithm answer.msg1.clientEncryptionAlgorithm none
      exchange.draws.newRootKey exchange.draws.nowMs with
    ⟨_, upserts⟩ | ⟨missing, _⟩ | ⟨found, recorded, present, _, passed, upserts⟩
  · cases upserts.symm.trans answered.upserts
  · cases missing.symm.trans valid
  · cases present.symm.trans valid
    cases upserts.symm.trans answered.upserts
    rw [← Except.ok.inj passed]
    exact insert_eq_self (valid?_eq_some.mp valid).1

/-- Nothing is recorded where a key is recorded already, or where none is shown. -/
theorem ConnContext.bindStaticKey_eq_self {key : SessionKey}
    {remoteStatic : Bytes} (stored : store key = some session)
    (nothing : session.peerStaticPubkey = none → remoteStatic.length ≠ 32) :
    (bindStaticKey store key remoteStatic).2 = store := by
  unfold bindStaticKey
  simp only [stored]
  split
  · rfl
  rename_i checked passed
  have same : checked = session := by
    unfold PeerSession.checkOrSetPeerStaticPubkey remoteStaticKey at passed
    cases recorded : session.peerStaticPubkey with
    | none =>
      rw [if_neg (nothing recorded)] at passed
      cases passed
      rfl
    | some existing =>
      rw [recorded] at passed
      split at passed
      · cases passed
        rfl
      · split at passed
        · cases passed
        cases passed
        rfl
      · rename_i impossible
        cases impossible
  rw [same]
  exact insert_eq_self stored

/-- An exchange that fails without a trace leaves the store as it was. -/
theorem ServerExchange.LeavesNoTrace.eq {before : PeerSessionStore}
    (noTrace : exchange.LeavesNoTrace context before)
    (fails : exchange.respond context before = some (.error error, after)) : after = before := by
  have settled : ∀ {answer answered}, exchange.answer context before = some (.ok answer, answered) →
      answered = before := by
    intro answer answered answers
    obtain ⟨session, valid, _⟩ := noTrace answer answered answers
    obtain ⟨_, _, told⟩ := answered_of_ok answers
    exact told.eq_of_valid valid
  have bound : ∀ {answer answered msg3 remoteStatic rest},
      exchange.answer context before = some (.ok answer, answered) →
      exchange.third answer = some (.ok (msg3, remoteStatic, rest)) →
      (bindStaticKey answered answer.key remoteStatic).2 = before := by
    intro answer answered msg3 remoteStatic rest answers receives
    obtain ⟨session, valid, nothing⟩ := noTrace answer answered answers
    rw [settled answers]
    exact bindStaticKey_eq_self (valid?_eq_some.mp valid).1
      fun unrecorded => nothing unrecorded _ _ _ receives
  cases ends_of_respond fails with
  | refused answers =>
    rcases answer_cases answers with ⟨_, _, same⟩ | ⟨_, _, _, ok, _⟩
    · exact same
    · cases ok
  | aborted answers receives => exact settled answers
  | mismatched answers receives binds | unauthenticated answers receives binds =>
    have same := bound answers receives
    rwa [binds] at same

/-! ## Exchanges that leave a trace -/

/-- On a session without a recorded key, a key that is shown is recorded. -/
theorem ConnContext.bindStaticKey_of_unrecorded {key : SessionKey}
    (stored : store key = some session)
    (unrecorded : session.peerStaticPubkey = none) (remoteStatic : Bytes) :
    bindStaticKey store key remoteStatic =
      (.ok (), store.insert key
        { session with peerStaticPubkey := remoteStaticKey remoteStatic }) := by
  obtain ⟨peerId, pubkey, datagram, invalidated⟩ := session
  cases unrecorded
  unfold bindStaticKey PeerSession.checkOrSetPeerStaticPubkey
  simp only [stored]
  cases remoteStaticKey remoteStatic with
  | none => rfl
  | some pubkey => rfl

/-- The session a first message has created, after the exchange has failed: its ciphers are the ones
that message asked for. -/
theorem ServerExchange.created_after_failure {before answered : PeerSessionStore}
    (answers : exchange.answer context before = some (.ok answer, answered))
    (missing : before.valid? answer.key = none)
    (fails : exchange.respond context before = some (.error error, after)) :
    ∃ session, after.valid? answer.key = some session ∧
      session.datagram.recvCipherAlgorithm = answer.msg1.clientEncryptionAlgorithm := by
  obtain ⟨fresh, created, unrecorded, valid, algorithm⟩ : ∃ fresh,
      answered answer.key = some fresh ∧ fresh.peerStaticPubkey = none ∧ fresh.isValid = true ∧
      fresh.datagram.recvCipherAlgorithm = answer.msg1.clientEncryptionAlgorithm := by
    obtain ⟨_, _, told⟩ := answered_of_ok answers
    have upserts := told.upserts
    simp only [upsertResponderSession, missing] at upserts
    cases upserts
    exact ⟨_, insert_self _ _ _, rfl, rfl, rfl⟩
  have bound : ∀ remoteStatic, bindStaticKey answered answer.key remoteStatic =
      (.ok (), answered.insert answer.key
        { fresh with peerStaticPubkey := remoteStaticKey remoteStatic }) :=
    bindStaticKey_of_unrecorded created unrecorded
  cases ends_of_respond fails with
  | refused answers' => cases answers.symm.trans answers'
  | aborted answers' receives =>
    cases answers.symm.trans answers'
    exact ⟨fresh, valid?_eq_some.mpr ⟨created, valid⟩, algorithm⟩
  | mismatched answers' receives binds =>
    cases answers.symm.trans answers'
    cases (bound _).symm.trans binds
  | unauthenticated answers' receives binds authenticates =>
    cases answers.symm.trans answers'
    cases (bound _).symm.trans binds
    exact ⟨_, valid?_eq_some.mpr ⟨insert_self _ _ _, valid⟩, algorithm⟩

/-! ## The peer that is turned away -/

namespace ServerExchange

variable
  {header : PeerManagerHeader}

theorem accepted_iff : exchange.accepted context store = true ↔
    ∃ result after, exchange.respond context store = some (.ok result, after) := by
  unfold accepted
  rw [Option.any_eq_true]
  constructor
  · rintro ⟨⟨result, after⟩, responds, ok⟩
    cases result with
    | error error => cases ok
    | ok result => exact ⟨result, after, responds⟩
  · rintro ⟨result, after, responds⟩
    exact ⟨_, responds, rfl⟩

/-- A first message is turned away by a valid session under other ciphers. -/
theorem not_accepted_of_algorithm {payload : Bytes} {msg1 : NoiseMsg1} {session : PeerSession}
    (present : exchange.first.peerManagerHeader = some header)
    (framed : exchange.first.payload = some payload)
    (reads : exchange.wire.readMsg1 payload = some msg1)
    (valid : store.valid? ⟨msg1.aNetworkName, header.fromPeerId⟩ = some session)
    (other : session.datagram.recvCipherAlgorithm ≠ msg1.clientEncryptionAlgorithm) :
    exchange.accepted context store ≠ true := by
  intro accepted
  obtain ⟨result, after, responds⟩ := accepted_iff.mp accepted
  cases ends_of_respond responds with
  | @accepted answer _ _ _ _ _ _ answers _ _ _ =>
    obtain ⟨header', _, told⟩ := answered_of_ok answers
    cases present.symm.trans told.present
    cases framed.symm.trans told.payload
    cases reads.symm.trans told.reads
    have key : answer.key = ⟨answer.msg1.aNetworkName, header.fromPeerId⟩ := by
      rw [Msg1Answer.key, told.source]
      rfl
    rw [← key] at valid
    have upserts := told.upserts
    have refuses : session.checkEncryptAlgoSame context.encryptionAlgorithm
        answer.msg1.clientEncryptionAlgorithm = .error (.message "encrypt algorithm not same") :=
      if_pos (.inr other)
    simp only [upsertResponderSession, valid, refuses] at upserts
    cases upserts

/-- Where there is no session yet, a first message is answered from a new one. -/
theorem answer_of_missing (context : ConnContext) {payload : Bytes} {msg1 : NoiseMsg1}
    {myPeerId : PeerId}
    (present : exchange.first.peerManagerHeader = some header)
    (typed : header.hasType .noiseHandshakeMsg1 = true)
    (framed : exchange.first.payload = some payload)
    (reads : exchange.wire.readMsg1 payload = some msg1)
    (accepts : exchange.recved exchange.myPeerId msg1.aNetworkName = .ok myPeerId)
    (missing : store.valid? ⟨msg1.aNetworkName, header.fromPeerId⟩ = none) :
    ∃ answer answered fresh, exchange.answer context store = some (.ok answer, answered) ∧
      answer.msg1 = msg1 ∧ answer.msg1Payload = payload ∧
      answer.msg2.bConnId = some exchange.draws.bConnId ∧
      answered answer.key = some fresh ∧ fresh.peerStaticPubkey = none := by
  have decodes : decodeHandshakeMessage .noiseHandshakeMsg1 exchange.wire.readMsg1 exchange.first =
      some (.ok msg1) := by
    simp [decodeHandshakeMessage, present, typed, framed, reads]
  simp only [answer, answerMsg1, present, framed, decodes, accepts, Option.bind_eq_bind,
    Option.bind_some, upsertResponderSession, ResponderContext.directKey, missing]
  exact ⟨_, _, _, rfl, rfl, rfl, rfl, insert_self _ _ _, rfl⟩

/-- A genuine peer whose key is trusted is accepted where there is no session for it yet. -/
theorem accepted_of_missing {peer : GenuinePeer} {first third : Bytes} {packet : PacketBuffer}
    {rest : List PacketBuffer} {myPeerId : PeerId} {thirdHeader : PeerManagerHeader}
    (conducts : peer.Conducts context.library exchange first third packet rest)
    (present : exchange.first.peerManagerHeader = some header)
    (typed : header.hasType .noiseHandshakeMsg1 = true)
    (presentThird : packet.peerManagerHeader = some thirdHeader)
    (typedThird : thirdHeader.hasType .noiseHandshakeMsg3 = true)
    (accepts : exchange.recved exchange.myPeerId peer.msg1.aNetworkName = .ok myPeerId)
    (sent : exchange.draws.sent = true)
    (missing : store.valid? ⟨peer.msg1.aNetworkName, header.fromPeerId⟩ = none)
    (trusted : context.isPubkeyTrusted peer.staticPubkey peer.msg1.aNetworkName = true) :
    exchange.accepted context store = true := by
  obtain ⟨answer, answered, fresh, answers, msg1, payload, bConnId, created, unrecorded⟩ :=
    answer_of_missing context present typed conducts.firstPayload conducts.readsFirst accepts
      missing
  have receives : exchange.third answer = some (.ok (peer.msg3 context.library
      (exchange.wire.hashAfterMsg2 first answer.msg2) answer.msg2, peer.staticPubkey, rest)) := by
    simp [ServerExchange.third, awaitMsg3, sent, conducts.next, decodeHandshakeMessage,
      presentThird, typedThird, conducts.thirdPayload, payload, conducts.readsThird,
      GenuinePeer.msg3, msg1, bConnId]
  obtain ⟨level, authenticates⟩ : ∃ level, context.authenticateClient exchange.wire answer
      (peer.msg3 context.library (exchange.wire.hashAfterMsg2 first answer.msg2) answer.msg2)
      peer.staticPubkey = .ok level := by
    unfold authenticateClient verifyRemoteAuth
    rw [msg1, if_pos trusted]
    split
    · split
      · exact ⟨_, rfl⟩
      · exact ⟨_, rfl⟩
    · exact ⟨_, rfl⟩
  exact accepted_iff.mpr ⟨_, _, respond_of_ends (.accepted answers receives
    (bindStaticKey_of_unrecorded created unrecorded _) authenticates)⟩

/-- A genuine peer with the id and the network of an exchange's first message, under another cipher,
and the exchange it has with the responder. -/
def rival (msg1 : NoiseMsg1) : GenuinePeer where
  msg1 := { msg1 with
    clientEncryptionAlgorithm := msg1.clientEncryptionAlgorithm ++ "'" }
  networkSecret := none
  staticPubkey := List.replicate 32 1
  secretDigest := []

def rivalExchange (exchange : ServerExchange) (library : SecretLibrary) (msg1 : NoiseMsg1) :
    ServerExchange :=
  { exchange with
    wire := { exchange.wire with
      readMsg1 := fun _ => some (rival msg1).msg1
      readMsg3 := fun first msg2 _ =>
        some ((rival msg1).msg3 library (exchange.wire.hashAfterMsg2 first msg2) msg2,
          (rival msg1).staticPubkey) }
    draws := { exchange.draws with sent := true }
    packets := [handshakePacket .noiseHandshakeMsg3] }

/-- An exchange that creates a session and fails turns away the rival, which would have been
accepted before it. -/
theorem disturbs_of_missing {before answered after : PeerSessionStore}
    (answers : exchange.answer context before = some (.ok answer, answered))
    (missing : before.valid? answer.key = none)
    (fails : exchange.respond context before = some (.error error, after)) :
    ¬DisturbsNobody context before after := by
  intro harmless
  obtain ⟨session, valid, algorithm⟩ := created_after_failure answers missing fails
  obtain ⟨header, _, told⟩ := answered_of_ok answers
  have key : answer.key = ⟨(rival answer.msg1).msg1.aNetworkName, header.fromPeerId⟩ := by
    rw [Msg1Answer.key, told.source]
    rfl
  rw [key] at missing valid
  have other : session.datagram.recvCipherAlgorithm ≠
      (rival answer.msg1).msg1.clientEncryptionAlgorithm := by
    rw [algorithm]
    intro same
    have lengths := congrArg String.length same
    simp [rival] at lengths
  let later : ConnContext := { context with trustedKeys := fun _ _ => true }
  have conducts : (rival answer.msg1).Conducts later.library
      (rivalExchange exchange later.library answer.msg1) answer.msg1Payload []
      (handshakePacket .noiseHandshakeMsg3) [] :=
    { firstPayload := told.payload
      readsFirst := rfl
      next := rfl
      thirdPayload := rfl
      readsThird := fun _ => rfl }
  have accepted : (rivalExchange exchange later.library answer.msg1).accepted later before = true :=
    accepted_of_missing conducts told.present told.typed rfl rfl told.accepts rfl missing rfl
  have rejected : (rivalExchange exchange later.library answer.msg1).accepted later after ≠ true :=
    not_accepted_of_algorithm told.present told.payload rfl valid other
  exact rejected (harmless.acceptsAlike later _ _ _ _ _ _ ⟨rfl, rfl, rfl⟩ conducts accepted)

/-- An exchange that records a key on a session without one and fails leaves the key there. -/
theorem disturbs_of_unrecorded {before answered after : PeerSessionStore}
    {session : PeerSession} {msg3 : NoiseMsg3} {remoteStatic : Bytes} {rest : List PacketBuffer}
    (answers : exchange.answer context before = some (.ok answer, answered))
    (valid : before.valid? answer.key = some session) (unrecorded : session.peerStaticPubkey = none)
    (receives : exchange.third answer = some (.ok (msg3, remoteStatic, rest)))
    (long : remoteStatic.length = 32)
    (fails : exchange.respond context before = some (.error error, after)) :
    ¬DisturbsNobody context before after := by
  intro harmless
  have stored := (valid?_eq_some.mp valid).1
  have settled : answered = before := by
    obtain ⟨_, _, told⟩ := answered_of_ok answers
    exact told.eq_of_valid valid
  rw [settled] at answers
  have bound := bindStaticKey_of_unrecorded stored unrecorded remoteStatic
  have recorded : ∃ pubkey, after = before.insert answer.key
      { session with peerStaticPubkey := some pubkey } := by
    cases ends_of_respond fails with
    | refused answers' => cases answers.symm.trans answers'
    | aborted answers' receives' =>
      cases answers.symm.trans answers'
      cases receives.symm.trans receives'
    | mismatched answers' receives' binds =>
      cases answers.symm.trans answers'
      cases receives.symm.trans receives'
      cases bound.symm.trans binds
    | unauthenticated answers' receives' binds authenticates =>
      cases answers.symm.trans answers'
      cases receives.symm.trans receives'
      cases bound.symm.trans binds
      rw [remoteStaticKey, if_pos long]
      exact ⟨_, rfl⟩
  obtain ⟨pubkey, rfl⟩ := recorded
  obtain ⟨kept, found, _, same⟩ := harmless.keeps answer.key session stored
  rw [insert_self] at found
  cases found
  rw [unrecorded] at same
  cases same

end ServerExchange

/-- A handshake that fails disturbs nobody exactly when it leaves no trace: it is refused on its
first message, or it meets a valid session, and that one has a recorded key or the handshake ends
before a key is shown. -/
theorem failed_handshake_disturbs_nobody_iff {exchange : ServerExchange} {context : ConnContext}
    {before after : PeerSessionStore} {error : ConnError}
    (fails : exchange.respond context before = some (.error error, after)) :
    DisturbsNobody context before after ↔ exchange.LeavesNoTrace context before := by
  constructor
  · intro harmless answer answered answers
    cases valid : before.valid? answer.key with
    | none =>
      exact absurd harmless (ServerExchange.disturbs_of_missing answers valid fails)
    | some session =>
      refine ⟨session, rfl, fun unrecorded msg3 remoteStatic rest receives long => ?_⟩
      exact ServerExchange.disturbs_of_unrecorded answers valid unrecorded receives long fails
        harmless
  · intro noTrace
    rw [noTrace.eq fails]
    exact .refl context before

/-! A stranger that names the network and the id of peer 7, and the peer 7 that has the secret. -/

def strangerExchange : ServerExchange := sampleExchange "net" (List.replicate 32 8) fun _ => none

def peerSeven : GenuinePeer where
  msg1 :=
    { aNetworkName := "net", aSessionGeneration := none
      clientEncryptionAlgorithm := "aes-gcm", aConnId := some 1, features := [] }
  networkSecret := some "secret"
  staticPubkey := List.replicate 32 7
  secretDigest := List.replicate 32 0

def peerSevenExchange : ServerExchange :=
  sampleExchange "net" peerSeven.staticPubkey fun challenge =>
    some (sampleSecrets.secretProof "secret" challenge)

/-- The stranger fails to authenticate, its key stays recorded, and the genuine peer, which would
have been accepted before, is turned away. -/
theorem stranger_turns_genuine_peer_away :
    ∃ error after, strangerExchange.respond sampleNode emptyStore = some (.error error, after) ∧
      (after ⟨"net", 7⟩).bind (·.peerStaticPubkey) = remoteStaticKey (List.replicate 32 8) ∧
      peerSeven.Conducts sampleNode.library peerSevenExchange [] []
        (handshakePacket .noiseHandshakeMsg3) [] ∧
      peerSevenExchange.accepted sampleNode emptyStore = true ∧
      peerSevenExchange.accepted sampleNode after = false := by
  have runs : (strangerExchange.respond sampleNode emptyStore).any (fun ended =>
      !ended.1.toBool &&
      (ended.2 ⟨"net", 7⟩).bind (·.peerStaticPubkey) == remoteStaticKey (List.replicate 32 8) &&
      peerSevenExchange.accepted sampleNode emptyStore &&
      !peerSevenExchange.accepted sampleNode ended.2) = true := by
    decide +kernel
  obtain ⟨⟨result, after⟩, responds, seen⟩ := (Option.any_eq_true _ _).mp runs
  simp only [Bool.and_eq_true, Bool.not_eq_true', beq_iff_eq] at seen
  obtain ⟨⟨⟨failed, recorded⟩, before⟩, rejected⟩ := seen
  cases result with
  | ok _ => cases failed
  | error error =>
    exact ⟨error, after, responds, recorded, ⟨rfl, rfl, rfl, rfl, fun _ => rfl⟩, before, rejected⟩

/-- The store of the node once peer 7 has a session that is bound to its key. -/
def storeOfSeven : PeerSessionStore :=
  emptyStore.insert ⟨"net", 7⟩
    (.new 7 4 1 0 "aes-gcm" "aes-gcm" (remoteStaticKey peerSeven.staticPubkey) 0)

/-- Against a session that is bound to a key, the stranger disturbs nobody. -/
theorem stranger_harmless_to_bound_session :
    ∃ error, strangerExchange.respond sampleNode storeOfSeven = some (.error error, storeOfSeven) ∧
      DisturbsNobody sampleNode storeOfSeven storeOfSeven := by
  have runs : (strangerExchange.respond sampleNode storeOfSeven).any (!·.1.toBool) = true := by
    decide +kernel
  have noTrace : strangerExchange.LeavesNoTrace sampleNode storeOfSeven := by
    intro answer answered answers
    obtain ⟨header, _, told⟩ := ServerExchange.answered_of_ok answers
    have key : answer.key = ⟨"net", 7⟩ := by
      have reads := told.reads
      have present := told.present
      cases present
      rw [Msg1Answer.key, told.source, ← Option.some.inj reads]
      rfl
    have stored : storeOfSeven answer.key = some (.new 7 4 1 0 "aes-gcm" "aes-gcm"
        (remoteStaticKey peerSeven.staticPubkey) 0) := by
      rw [key]
      exact insert_self _ _ _
    refine ⟨_, valid?_eq_some.mpr ⟨stored, rfl⟩, fun unrecorded => ?_⟩
    cases unrecorded
  obtain ⟨⟨result, after⟩, responds, failed⟩ := (Option.any_eq_true _ _).mp runs
  cases result with
  | ok _ => cases failed
  | error error =>
    have same := noTrace.eq responds
    rw [same] at responds
    exact ⟨error, responds, (failed_handshake_disturbs_nobody_iff responds).mpr noTrace⟩

end EasyTier.Peers
