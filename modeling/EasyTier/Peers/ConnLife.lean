import EasyTier.Peers.Admission
import EasyTier.Semantics.System

/-! # The life of a connection on the server's side

A connection waits for its handshake, is looked at once it has one, and is then established: a loop
receives packets, answers pings and passes pongs on to the pinger, which sends pings of its own and
waits for the pong with its number. A step without a result is a panic of the task that takes it.
-/

namespace EasyTier.Peers

open Data Packet Semantics

/-! ## The pinger -/

/-- The pinger between two rounds, or in one: then it has the pongs that have come since its
ping. -/
structure PeerConnPinger where
  reqSeq : Nat := 0
  lossCounter : Nat := 0
  receiver : Option (List PacketBuffer) := none
  deriving DecidableEq

namespace PeerConnPinger

/-- The number of pongs a receiver can be behind. -/
def receiverCapacity : Nat := 8

def startRound (pinger : PeerConnPinger) : PeerConnPinger := { pinger with receiver := some [] }

/-- The end of a round; after five failures in a row the pinger ends. -/
def finishRound (pinger : PeerConnPinger) (responded : Bool) : Option PeerConnPinger :=
  let lossCounter := if responded then 0 else pinger.lossCounter + 1
  if 5 ≤ lossCounter then none
  else some
    { reqSeq := (pinger.reqSeq + 1) % 2 ^ 32, lossCounter := lossCounter, receiver := none }

/-- A pong for the pinger, which is dropped if the pinger does not wait for one. -/
def passOn (pinger : PeerConnPinger) (packet : PacketBuffer) : PeerConnPinger :=
  { pinger with receiver := pinger.receiver.map (· ++ [packet]) }

/-- One turn of the wait of `do_pingpong_once`: the pong at the front is compared with the number of
the ping. A receiver that is too far behind fails. -/
def takePong (pinger : PeerConnPinger) : Option (Option PeerConnPinger) :=
  match pinger.receiver with
  | none | some [] => some (some pinger)
  | some (packet :: packets) =>
    if receiverCapacity < (packet :: packets).length then some (pinger.finishRound false)
    else do
      let payload ← packet.payload
      let seqBuf ← range? payload 0 4
      if LittleEndian.decode seqBuf = pinger.reqSeq then return pinger.finishRound true
      else return some { pinger with receiver := some packets }

end PeerConnPinger

/-! ## The established connection -/

/-- A connection the node has taken. -/
structure EstablishedConn where
  conn : PeerConn
  /-- What the remote has sent and the loop has not received yet. -/
  incoming : List PacketBuffer
  receiving : Bool
  /-- The packets sent back, and those passed on to the node. -/
  answered : List PacketBuffer
  delivered : List PacketBuffer
  pinger : Option PeerConnPinger
  deriving DecidableEq

namespace EstablishedConn

/-- The ping as it is sent back. -/
def asPong (packet : PacketBuffer) : PacketBuffer :=
  { packet with
    inner := packet.inner.set (packet.packetType.peerManagerHeaderOffset + 8) PacketType.pong.code }

/-- One turn of the receive loop; `taken` says whether the node still takes packets. -/
def receive (link : EstablishedConn) (taken : Bool) : EstablishedConn :=
  if !link.receiving then link
  else
    match link.incoming with
    | [] => { link with receiving := false }
    | packet :: incoming =>
      let link := { link with incoming := incoming }
      match packet.peerManagerHeader with
      | none => { link with receiving := false }
      | some header =>
        if header.hasType .ping then
          { link with answered := link.answered ++ [asPong packet] }
        else if header.hasType .pong then
          { link with pinger := link.pinger.map (·.passOn packet) }
        else if taken then { link with delivered := link.delivered ++ [packet] }
        else { link with receiving := false }

end EstablishedConn

/-! ## Lives -/

/-- The stages of a connection on the side that accepts it. -/
inductive ConnLife where
  | waiting
  | shaken (conn : PeerConn) (incoming : List PacketBuffer)
  | established (link : EstablishedConn)
  | closed
  deriving DecidableEq

inductive ConnAction where
  | shake
  /-- The node looks at the identity and takes the connection or not. -/
  | addConn (accepted : Bool)
  | receive (taken : Bool)
  | ping
  | takePong
  /-- A round of the pinger ends without a pong: in vain, or with another sign of life. -/
  | finishRound (responded : Bool)
  deriving DecidableEq

/-- Everything that a connection on the server's side meets. -/
structure ServerTunnel where
  context : ConnContext
  wire : Wire
  recved : HandshakeRecved
  myPeerId : PeerId
  store : PeerSessionStore
  draws : ServerDraws
  packets : List PacketBuffer

namespace ConnLife

def shake (tunnel : ServerTunnel) : Option ConnLife := do
  let (result, _) ← (PeerConn.new tunnel.myPeerId).doHandshakeAsServerExt tunnel.context tunnel.wire
    tunnel.recved tunnel.store tunnel.draws tunnel.packets
  match result with
  | .error _ => return .closed
  | .ok (conn, incoming) => return .shaken conn incoming

/-- The look at the identity and the start of the loop and the pinger, which both ask for the peer
id. -/
def addConn (conn : PeerConn) (incoming : List PacketBuffer) (accepted : Bool) :
    Option ConnLife := do
  let _identity ← conn.getNetworkIdentity
  if !accepted then return .closed
  else
    let _peerId ← conn.getPeerId
    return .established
      { conn := conn, incoming := incoming, receiving := true, answered := [], delivered := []
        pinger := some {} }

/-- The step of a pinger that has not ended. -/
def withPinger (link : EstablishedConn)
    (move : PeerConnPinger → Option (Option PeerConnPinger)) : Option ConnLife :=
  match link.pinger with
  | none => some (.established link)
  | some pinger => (move pinger).map fun pinger => .established { link with pinger := pinger }

def step (tunnel : ServerTunnel) (life : ConnLife) (action : ConnAction) : Option ConnLife :=
  match life, action with
  | .waiting, .shake => shake tunnel
  | .shaken conn incoming, .addConn accepted => addConn conn incoming accepted
  | .established link, .receive taken => some (.established (link.receive taken))
  | .established link, .ping => withPinger link fun pinger =>
    some (some (if pinger.receiver.isSome then pinger else pinger.startRound))
  | .established link, .takePong => withPinger link (·.takePong)
  | .established link, .finishRound responded => withPinger link fun pinger =>
    some (if pinger.receiver.isSome then pinger.finishRound responded else some pinger)
  | life, _ => some life

end ConnLife

/-- The lives of a connection; a panic ends them. -/
def connSystem (tunnel : ServerTunnel) : System ConnLife ConnAction :=
  .ofStep (· = .waiting) (ConnLife.step tunnel)

/-! ## Handshakes do not panic -/

theorem decodeHandshakeMessage_isSome {Message : Type} (expected : PacketType)
    (read : Bytes → Option Message) (packet : PacketBuffer) :
    (decodeHandshakeMessage expected read packet).isSome = true := by
  unfold decodeHandshakeMessage
  cases present : packet.peerManagerHeader with
  | none => rfl
  | some header =>
    rw [PacketBuffer.payload_of_header present]
    dsimp only
    split
    · rfl
    · rfl

theorem decodeHandshakePacket_isSome (wire : Wire) (packet : PacketBuffer) :
    (decodeHandshakePacket wire packet).isSome = true := by
  rw [decodeHandshakePacket, Option.isSome_map]
  exact decodeHandshakeMessage_isSome _ _ _

/-- A plain handshake that is decoded has a digest of the right length. -/
theorem decodeHandshakePacket_digest {wire : Wire} {packet : PacketBuffer}
    {request : HandshakeRequest}
    (decodes : decodeHandshakePacket wire packet = some (.ok request)) :
    request.networkSecretDigest.length = 32 := by
  obtain ⟨decoded, _, checks⟩ := Option.map_eq_some_iff.mp decodes
  cases decoded with
  | error error => cases checks
  | ok found =>
    dsimp only at checks
    split at checks
    · cases checks
    rename_i long
    cases checks
    exact not_ne_iff.mp long

namespace PeerConn

theorem plainHandshakeAsServer_isSome (context : ConnContext) (wire : Wire)
    (recved : HandshakeRecved) (conn : PeerConn) (sent : Bool) (first : PacketBuffer) :
    (conn.plainHandshakeAsServer context wire recved sent first).isSome = true := by
  obtain ⟨decoded, decodes⟩ := Option.isSome_iff_exists.mp (decodeHandshakePacket_isSome wire first)
  rw [plainHandshakeAsServer, decodes]
  cases decoded with
  | error error => rfl
  | ok request =>
    simp only [Option.bind_eq_bind, Option.bind_some]
    split
    · rfl
    rename_i myPeerId accepted
    have identifies : getNetworkIdentity
        { conn with myPeerId := myPeerId, info := some request, isClient := some false }
          |>.isSome :=
      by simp [getNetworkIdentity_eq, decodeHandshakePacket_digest decodes]
    obtain ⟨identity, identifies⟩ := Option.isSome_iff_exists.mp identifies
    rw [identifies, Option.bind_some]
    split
    · rfl
    · rfl

end PeerConn

namespace ServerExchange

variable {exchange : ServerExchange} {header : PeerManagerHeader}

theorem answer_isSome (present : exchange.first.peerManagerHeader = some header)
    (context : ConnContext) (store : PeerSessionStore) :
    (exchange.answer context store).isSome = true := by
  obtain ⟨decoded, decodes⟩ := Option.isSome_iff_exists.mp (decodeHandshakeMessage_isSome
    .noiseHandshakeMsg1 exchange.wire.readMsg1 exchange.first)
  simp only [answer, ConnContext.answerMsg1, present, PacketBuffer.payload_of_header present,
    decodes, Option.bind_eq_bind, Option.bind_some]
  cases decoded with
  | error error => rfl
  | ok msg1 =>
    dsimp only
    split
    · rfl
    · split
      · rfl
      · rfl

theorem third_isSome (answer : Msg1Answer) : (exchange.third answer).isSome = true := by
  unfold third ConnContext.awaitMsg3
  split
  · rfl
  · split
    · rfl
    · rw [Option.isSome_map]
      exact decodeHandshakeMessage_isSome _ _ _

theorem respond_isSome (present : exchange.first.peerManagerHeader = some header)
    (context : ConnContext) (store : PeerSessionStore) :
    (exchange.respond context store).isSome = true := by
  obtain ⟨⟨answered, after⟩, answers⟩ :=
    Option.isSome_iff_exists.mp (answer_isSome present context store)
  rw [answer] at answers
  unfold respond ConnContext.doNoiseHandshakeAsServer
  simp only [answers, Option.bind_eq_bind, Option.bind_some]
  cases answered with
  | error error => rfl
  | ok answer =>
    obtain ⟨received, receives⟩ := Option.isSome_iff_exists.mp (exchange.third_isSome answer)
    rw [third] at receives
    simp only [receives, Option.bind_some]
    cases received with
    | error error => rfl
    | ok received =>
      dsimp only
      split
      · rfl
      · split
        · rfl
        · rfl

end ServerExchange

theorem PeerConn.doHandshakeAsServerExt_isSome (context : ConnContext) (wire : Wire)
    (recved : HandshakeRecved) (conn : PeerConn) (store : PeerSessionStore) (draws : ServerDraws)
    (packets : List PacketBuffer) :
    (conn.doHandshakeAsServerExt context wire recved store draws packets).isSome = true := by
  unfold doHandshakeAsServerExt
  split
  · rfl
  rename_i first packets' received
  split
  · rfl
  rename_i header present
  split
  · let exchange : ServerExchange := ⟨wire, recved, conn.myPeerId, draws, first, packets'⟩
    obtain ⟨⟨result, after⟩, responds⟩ :=
      Option.isSome_iff_exists.mp (exchange.respond_isSome present context store)
    have responds : context.doNoiseHandshakeAsServer wire recved conn.myPeerId store draws first
        packets' = some (result, after) := responds
    simp only [responds, Option.bind_eq_bind, Option.bind_some]
    cases result with
    | error error => rfl
    | ok result => rfl
  · split
    · obtain ⟨shaken, shakes⟩ := Option.isSome_iff_exists.mp
        (plainHandshakeAsServer_isSome context wire recved conn draws.sent first)
      simp only [shakes, Option.bind_eq_bind, Option.bind_some]
      rfl
    · rfl

/-! ## Steps that panic -/

/-- Only packets with a header are passed on to the pinger. -/
def PeerConnPinger.HasHeaders (pinger : PeerConnPinger) : Prop :=
  ∀ queue, pinger.receiver = some queue → ∀ packet ∈ queue, packet.peerManagerHeader.isSome = true

variable {tunnel : ServerTunnel}

namespace ConnLife

/-- A connection that has shaken hands knows what it was told. -/
def Sound : ConnLife → Prop
  | .shaken conn _ => ∃ request, conn.info = some request ∧
    (conn.noiseHandshakeResult = none → request.networkSecretDigest.length = 32) ∧
    ∀ noise, conn.noiseHandshakeResult = some noise →
      request.networkSecretDigest = noise.secretDigest
  | .established link => ∀ pinger, link.pinger = some pinger → pinger.HasHeaders
  | .waiting | .closed => True

/-- What keeps a step from a panic: the digest in the third message of a Noise handshake is 32 bytes
long, and a pong that the pinger looks at has 4 bytes of payload. -/
def Safe : ConnLife → ConnAction → Prop
  | .shaken conn _, .addConn _ => ∀ noise, conn.noiseHandshakeResult = some noise →
    noise.secretDigest.length = 32
  | .established link, .takePong => ∀ pinger packet packets, link.pinger = some pinger →
    pinger.receiver = some (packet :: packets) →
    (packet :: packets).length ≤ PeerConnPinger.receiverCapacity →
    packet.payloadOffset + 4 ≤ packet.inner.length
  | _, _ => True

theorem addConn_isSome_iff {conn : PeerConn} {incoming : List PacketBuffer} (accepted : Bool)
    (sound : Sound (.shaken conn incoming)) :
    (addConn conn incoming accepted).isSome = true ↔
      Safe (.shaken conn incoming) (.addConn accepted) := by
  obtain ⟨request, info, plain, noisy⟩ := sound
  have asks : (addConn conn incoming accepted).isSome = conn.getNetworkIdentity.isSome := by
    unfold addConn
    cases conn.getNetworkIdentity with
    | none => rfl
    | some identity => cases accepted <;> simp [PeerConn.getPeerId, info]
  rw [asks, PeerConn.getNetworkIdentity_eq info]
  cases shaken : conn.noiseHandshakeResult with
  | none => simp [Safe, shaken, plain shaken]
  | some noise => simp [Safe, shaken, noisy noise shaken]

theorem takePong_isSome_iff {pinger : PeerConnPinger} (headers : pinger.HasHeaders) :
    pinger.takePong.isSome = true ↔ ∀ packet packets, pinger.receiver = some (packet :: packets) →
      (packet :: packets).length ≤ PeerConnPinger.receiverCapacity →
      packet.payloadOffset + 4 ≤ packet.inner.length := by
  unfold PeerConnPinger.takePong
  cases waits : pinger.receiver with
  | none => simp
  | some queue =>
    cases queue with
    | nil => simp
    | cons packet packets =>
      obtain ⟨header, present⟩ := Option.isSome_iff_exists.mp (headers _ waits packet (by simp))
      have framed := PacketBuffer.payload_of_header present
      dsimp only
      split
      · simp only [Option.isSome_some, true_iff]
        rintro packet' packets' ⟨⟩ short
        omega
      · have reads : (packet.payload.bind fun payload => (range? payload 0 4).bind fun seqBuf =>
            if LittleEndian.decode seqBuf = pinger.reqSeq then some (pinger.finishRound true)
            else some (some { pinger with receiver := some packets })).isSome =
            (range? (packet.inner.drop packet.payloadOffset) 0 4).isSome := by
          rw [framed, Option.bind_some]
          cases range? (packet.inner.drop packet.payloadOffset) 0 4 with
          | none => rfl
          | some seqBuf =>
            rw [Option.bind_some]
            split <;> rfl
        refine (iff_of_eq (congrArg (· = true) reads)).trans ?_
        rw [range?_isSome_iff, List.length_drop]
        constructor
        · rintro ⟨_, inside⟩ packet' packets' ⟨⟩ _
          omega
        · intro long
          have := long packet packets rfl (by omega)
          omega

/-- In a sound state a step is without a panic exactly when it is safe. -/
theorem step_isSome_iff {life : ConnLife} (sound : life.Sound)
    (action : ConnAction) : (step tunnel life action).isSome = true ↔ life.Safe action := by
  cases life with
  | waiting =>
    cases action with
    | shake =>
      obtain ⟨⟨result, after⟩, shakes⟩ := Option.isSome_iff_exists.mp
        (PeerConn.doHandshakeAsServerExt_isSome tunnel.context tunnel.wire tunnel.recved
          (PeerConn.new tunnel.myPeerId) tunnel.store tunnel.draws tunnel.packets)
      simp only [step, shake, shakes, Option.bind_eq_bind, Option.bind_some, Safe, iff_true]
      cases result <;> rfl
    | _ => simp [step, Safe]
  | shaken conn incoming =>
    cases action with
    | addConn accepted => exact addConn_isSome_iff accepted sound
    | _ => simp [step, Safe]
  | established link =>
    cases action with
    | takePong =>
      cases pings : link.pinger with
      | none => simp [step, withPinger, pings, Safe]
      | some pinger =>
        simp only [step, withPinger, pings, Option.isSome_map,
          takePong_isSome_iff (sound pinger pings), Safe]
        constructor
        · rintro long _ packet packets ⟨⟩
          exact long packet packets
        · intro long packet packets
          exact long pinger packet packets rfl
    | ping | finishRound _ =>
      cases pings : link.pinger with
      | none => simp [step, withPinger, pings, Safe]
      | some pinger => simp [step, withPinger, pings, Safe]
    | _ => simp [step, Safe]
  | closed => cases action <;> simp [step, Safe]

end ConnLife

/-! ## What steps keep -/

namespace PeerConnPinger

variable {pinger after : PeerConnPinger}

theorem HasHeaders.finishRound {responded : Bool}
    (finishes : pinger.finishRound responded = some after) : after.HasHeaders := by
  unfold PeerConnPinger.finishRound at finishes
  generalize (if responded then 0 else pinger.lossCounter + 1) = lossCounter at finishes
  dsimp only at finishes
  split at finishes
  · cases finishes
  cases finishes
  intro queue waits
  cases waits

theorem HasHeaders.passOn (headers : pinger.HasHeaders) {packet : PacketBuffer}
    (present : packet.peerManagerHeader.isSome = true) : (pinger.passOn packet).HasHeaders := by
  intro queue waits packet' member
  obtain ⟨earlier, waited, rfl⟩ := Option.map_eq_some_iff.mp waits
  rcases List.mem_append.mp member with older | newest
  · exact headers earlier waited packet' older
  · rw [List.mem_singleton.mp newest]
    exact present

theorem HasHeaders.takePong (headers : pinger.HasHeaders)
    (takes : pinger.takePong = some (some after)) : after.HasHeaders := by
  unfold PeerConnPinger.takePong at takes
  split at takes
  · cases takes
    exact headers
  · cases takes
    exact headers
  · rename_i packet packets waits
    split at takes
    · exact .finishRound (Option.some.inj takes)
    obtain ⟨payload, _, takes⟩ := Option.bind_eq_some_iff.mp takes
    obtain ⟨seqBuf, _, takes⟩ := Option.bind_eq_some_iff.mp takes
    split at takes
    · exact .finishRound (Option.some.inj takes)
    · cases takes
      rintro _ ⟨⟩ packet' member
      exact headers _ waits packet' (List.mem_cons_of_mem _ member)

end PeerConnPinger

namespace ConnLife

variable {life : ConnLife}

theorem sound_withPinger {link : EstablishedConn}
    {move : PeerConnPinger → Option (Option PeerConnPinger)} (sound : Sound (.established link))
    (keeps : ∀ pinger after, pinger.HasHeaders → move pinger = some (some after) → after.HasHeaders)
    (moves : withPinger link move = some life) : life.Sound := by
  unfold withPinger at moves
  split at moves
  · cases moves
    exact sound
  · rename_i pinger pings
    obtain ⟨moved, result, rfl⟩ := Option.map_eq_some_iff.mp moves
    intro after found
    rw [show moved = some after from found] at result
    exact keeps pinger after (sound pinger pings) result

theorem sound_receive {link : EstablishedConn} (taken : Bool) (sound : Sound (.established link)) :
    Sound (.established (link.receive taken)) := by
  unfold EstablishedConn.receive
  split
  · exact sound
  split
  · exact sound
  split
  · exact sound
  rename_i packet incoming _ header present
  split
  · exact sound
  split
  · intro pinger found
    obtain ⟨earlier, pings, rfl⟩ := Option.map_eq_some_iff.mp found
    exact (sound earlier pings).passOn (by rw [present]; rfl)
  split
  · exact sound
  · exact sound

theorem sound_shake (shakes : shake tunnel = some life) : life.Sound := by
  obtain ⟨⟨result, after⟩, shook, shakes⟩ := Option.bind_eq_some_iff.mp shakes
  cases result with
  | error error =>
    cases shakes
    trivial
  | ok result =>
    cases shakes
    obtain ⟨first, packets, _, ⟨_, noise, _, _, info, noisy⟩ | ⟨request, decodes, info, plain⟩⟩ :=
      PeerConn.doHandshakeAsServerExt_ok shook
    · refine ⟨_, info, fun missing => ?_, fun noise' found => ?_⟩
      · cases noisy.symm.trans missing
      · cases noisy.symm.trans found
        rfl
    · refine ⟨request, info, fun _ => decodeHandshakePacket_digest decodes, fun noise found => ?_⟩
      cases plain.symm.trans found

theorem sound_step {next : ConnLife} {action : ConnAction}
    (sound : life.Sound) (steps : step tunnel life action = some next) : next.Sound := by
  unfold step at steps
  split at steps
  · exact sound_shake steps
  · obtain ⟨identity, _, steps⟩ := Option.bind_eq_some_iff.mp steps
    split at steps
    · cases steps
      trivial
    · obtain ⟨peerId, _, steps⟩ := Option.bind_eq_some_iff.mp steps
      cases steps
      rintro _ ⟨⟩ _ ⟨⟩
  · cases steps
    exact sound_receive _ sound
  · refine sound_withPinger sound (fun pinger after headers moves => ?_) steps
    cases moves
    split
    · exact headers
    · rintro _ ⟨⟩ _ ⟨⟩
  · exact sound_withPinger sound (fun _ _ headers moves => headers.takePong moves) steps
  · refine sound_withPinger sound (fun pinger after headers moves => ?_) steps
    have moves := Option.some.inj moves
    split at moves
    · exact .finishRound moves
    · cases moves
      exact headers
  · cases steps
    exact sound

theorem sound_of_reachable (reached : (connSystem tunnel).Reachable life) : life.Sound := by
  refine reached.invariant ?_ ?_
  · rintro _ rfl
    trivial
  · intro before action after sound _ steps
    exact sound_step sound steps

end ConnLife

/-- However a connection has come to its state, its next step is without a panic exactly when it is
safe. -/
theorem step_without_panic_iff_safe {tunnel : ServerTunnel} {life : ConnLife}
    (reached : (connSystem tunnel).Reachable life) (action : ConnAction) :
    (life.step tunnel action).isSome = true ↔ life.Safe action :=
  ConnLife.step_isSome_iff (ConnLife.sound_of_reachable reached) action

/-! Tunnels to the node of network `net`: a Noise handshake whose third message has a digest of the
given length, and a plain handshake that is followed by a pong with the given payload. -/

def noiseTunnel (digest : Bytes) : ServerTunnel where
  context := sampleNode
  wire :=
    { (sampleExchange "net" trustedKey fun _ => none).wire with
      readMsg3 := fun _ msg2 _ => some
        ({ aConnIdEcho := some 1, bConnIdEcho := msg2.bConnId, secretProof32 := none
           secretDigest := digest }, trustedKey) }
  recved myPeerId _ := .ok myPeerId
  myPeerId := 3
  store := emptyStore
  draws := { newRootKey := 4, bConnId := 2, nowMs := 0, sent := true }
  packets := [handshakePacket .noiseHandshakeMsg1, handshakePacket .noiseHandshakeMsg3]

def pongTunnel (payload : Bytes) : ServerTunnel where
  context := plainNode
  wire := (plainTunnel serverRole (sampleSecrets.networkSecretDigest "net" "secret")).wire
  recved myPeerId _ := .ok myPeerId
  myPeerId := 3
  store := emptyStore
  draws := { newRootKey := 4, bConnId := 2, nowMs := 0, sent := true }
  packets :=
    [handshakePacket .handShake,
      { handshakePacket .pong with inner := (handshakePacket .pong).inner ++ payload }]

/-- A third message without a digest makes the look at the identity panic, and a pong without a
payload the pinger that waits for one. -/
theorem short_inputs_panic :
    (∃ life, (connSystem (noiseTunnel [])).Reachable life ∧
      life.step (noiseTunnel []) (.addConn true) = none) ∧
    ∃ life, (connSystem (pongTunnel [])).Reachable life ∧
      life.step (pongTunnel []) .takePong = none := by
  constructor
  · exact System.exists_reachable .waiting [.shake]
      (fun life => (life.step (noiseTunnel []) (.addConn true)).isNone) rfl (by decide +kernel)
      fun life _ _ panics => Option.isNone_iff_eq_none.mp panics
  · exact System.exists_reachable .waiting [.shake, .addConn true, .ping, .receive true]
      (fun life => (life.step (pongTunnel []) .takePong).isNone) rfl (by decide +kernel)
      fun life _ _ panics => Option.isNone_iff_eq_none.mp panics

/-- The pong with the number of the ping is taken. -/
theorem full_pong_taken :
    ∃ life, (connSystem (pongTunnel [0, 0, 0, 0])).Reachable life ∧
      (life.step (pongTunnel [0, 0, 0, 0]) .takePong).isSome = true := by
  refine System.exists_reachable .waiting [.shake, .addConn true, .ping, .receive true]
    (fun life => (match life with
      | .established link => (link.pinger.bind (·.receiver)).all
          (·.all fun packet => packet.payloadOffset + 4 ≤ packet.inner.length)
      | _ => true) = true) rfl (by decide +kernel) fun life reached _ shape => ?_
  refine (step_without_panic_iff_safe reached .takePong).mpr ?_
  cases life with
  | established link =>
    intro pinger packet packets pings waits _
    have long : ((packet :: packets).all fun packet =>
        packet.payloadOffset + 4 ≤ packet.inner.length) = true := by
      simpa [pings, waits] using shape
    exact of_decide_eq_true (List.all_eq_true.mp long packet (by simp))
  | _ => trivial

end EasyTier.Peers
