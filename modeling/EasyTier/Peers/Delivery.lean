import EasyTier.Peers.NodeInvariants

/-! # Authenticated delivery

A packet for this node is decrypted by the filter of its connection or by the receive loop, with a
session with the peer its header names as the sender. Both step aside when the encrypted flag is
clear, so what is delivered is authentic exactly as long as such packets do not arrive.
-/

namespace EasyTier.Peers

open Data Packet Tunnel Semantics SessionTable PeerSessionTunnelFilter

/-- The payload is the plaintext of a call the sender made on its session with this node. -/
def FromCall (config : NodeConfig) (state : NodeState) (sender : PeerId) (payload : Bytes) : Prop :=
  ∃ call ∈ state.calls, call.sender = sender ∧ call.receiver = config.myPeerId ∧
    (sender, call.rootKey) ∈ state.table.agreed ∧ call.plain = payload

/-- The packet is what decompression makes of such a plaintext. -/
def Authentic (config : NodeConfig) (state : NodeState) (sender : PeerId) (packet : ZCPacket) :
    Prop :=
  ∃ opened : ZCPacket, FromCall config state sender opened.payload ∧
    decompress config.codec opened = some packet

/-- The packets an event may decrypt. -/
def NodeState.attempts (state : NodeState) : NodeEvent → List ZCPacket
  | .arrive _ packet _ _ => [packet]
  | .step index _ => (state.items[index]?).toList.map (·.packet)
  | _ => []

/-- What opens under a session with its sender was sealed by that sender. -/
def OpensOnlyGenuine (config : NodeConfig) (state : NodeState) (event : NodeEvent) : Prop :=
  ∀ packet ∈ state.attempts event, ∀ session ∈ state.table.sessions,
    session.peerId = packet.header.fromPeerId →
    ∀ opening ∈ openings config.primitives session.rootKey
        (PeerSession.dirForSender packet.header.fromPeerId config.myPeerId) packet.payload,
      { sender := packet.header.fromPeerId
        receiver := config.myPeerId
        rootKey := session.rootKey
        nonce := opening.1
        plain := opening.2 } ∈ state.calls

instance (config : NodeConfig) (state : NodeState) (event : NodeEvent) :
    Decidable (OpensOnlyGenuine config state event) :=
  inferInstanceAs (Decidable (∀ packet ∈ state.attempts event, _))

/-- What arrives for this node on a connection with a session is flagged as encrypted, unless it is
a handshake, Ping or Pong packet. -/
def ArrivesSealed (config : NodeConfig) (state : NodeState) : NodeEvent → Prop
  | .arrive index packet _ _ =>
    (state.conns[index]?).any (·.noise) = true → packet.header.toPeerId = config.myPeerId →
      shouldSkipEncrypt packet.header = false → packet.header.isEncrypted = true
  | _ => True

instance (config : NodeConfig) (state : NodeState) (event : NodeEvent) :
    Decidable (ArrivesSealed config state event) := by
  unfold ArrivesSealed
  cases_type NodeEvent <;> infer_instance

/-! ## Opening a packet -/

variable {config : NodeConfig} {before after state : NodeState} {packet : ZCPacket} {nowMs : Nat}
  {item : Item}

theorem FromCall.mono {sender : PeerId}
    {payload : Bytes} (fromCall : FromCall config before sender payload)
    (calls : before.calls ⊆ after.calls) (evolves : Evolves before.table after.table) :
    FromCall config after sender payload := by
  obtain ⟨call, made, isSender, isReceiver, agreed, plain⟩ := fromCall
  exact ⟨call, calls made, isSender, isReceiver, evolves.agreed agreed, plain⟩

/-- A flagged packet that a session with its sender accepts comes from a call of the sender. -/
theorem fromCall_of_decryptPayload {event : NodeEvent}
    (sound : state.table.Sound config.primitives) (genuine : OpensOnlyGenuine config state event)
    {attempt plain : ZCPacket} (attempted : attempt ∈ state.attempts event)
    (sameSender : packet.header.fromPeerId = attempt.header.fromPeerId)
    (samePayload : packet.payload = attempt.payload) {ref : SessionRef} {session : PeerSession}
    (found : state.table.sessions[ref]? = some session)
    (ofSender : session.peerId = packet.header.fromPeerId)
    (flagged : packet.header.isEncrypted = true)
    (accepted : (session.decryptPayload config.primitives packet.header.fromPeerId config.myPeerId
      packet nowMs).1 = .ok plain) :
    plain.header = packet.header.setEncrypted false ∧
      FromCall config state packet.header.fromPeerId plain.payload := by
  have member : session ∈ state.table.sessions := List.mem_of_getElem? found
  unfold PeerSession.decryptPayload at accepted
  split at accepted
  · cases accepted
  rcases (sound.derived session member).opens_of_decryptPayload (sound.aead session member).2
      accepted with ⟨clear, _⟩ | ⟨header, nonce, opens⟩
  · rw [flagged] at clear
    cases clear
  · rw [sameSender, samePayload] at opens
    rw [sameSender] at ofSender ⊢
    have made := genuine attempt attempted session member ofSender _ opens.mem_openings
    have agreed := sound.agreed session member
    rw [ofSender] at agreed
    exact ⟨header, _, made, rfl, rfl, agreed, rfl⟩

/-! ## Packets for this node -/

/-- The packet arrived for this node on a connection with a session, and is not a handshake, Ping or
Pong packet. -/
structure Concerns (config : NodeConfig) (item : Item) : Prop where
  arrived : item.entered = .arrived true
  forMe : item.source.header.toPeerId = config.myPeerId
  notSkipped : shouldSkipEncrypt item.source.header = false

/-- The packet waits for the receive loop, where it is still sealed or already authentic. -/
structure Waiting (config : NodeConfig) (state : NodeState) (sender : PeerId) (packet : ZCPacket) :
    Prop where
  fromPeerId : packet.header.fromPeerId = sender
  toPeerId : packet.header.toPeerId = config.myPeerId
  payload : packet.header.isEncrypted = true ∨ FromCall config state sender packet.payload

def Trusted (config : NodeConfig) (state : NodeState) (item : Item) : Prop :=
  (item.place = .inbox ∧ Waiting config state item.source.header.fromPeerId item.packet) ∨
    (item.place = .delivered ∧ Authentic config state item.source.header.fromPeerId item.packet)

theorem Trusted.mono (trusted : Trusted config before item) (calls : before.calls ⊆ after.calls)
    (evolves : Evolves before.table after.table) : Trusted config after item := by
  rcases trusted with ⟨at_inbox, waiting⟩ | ⟨delivered, opened, fromCall, decompresses⟩
  · refine .inl ⟨at_inbox, waiting.fromPeerId, waiting.toPeerId, ?_⟩
    exact waiting.payload.imp_right fun fromCall => fromCall.mono calls evolves
  · exact .inr ⟨delivered, opened, fromCall.mono calls evolves, decompresses⟩

/-- What the receive loop opens is authentic. -/
theorem Waiting.openLocal (secure : config.secureModeEnabled = true)
    (sound : state.table.Sound config.primitives) {index : Nat} {env : StepEnv}
    (genuine : OpensOnlyGenuine config state (.step index env))
    (found : state.items[index]? = some item) {sender : PeerId}
    (waiting : Waiting config state sender item.packet) {opened : ZCPacket}
    (opens : (config.openLocal state.table item.packet nowMs).1 = some opened) :
    FromCall config state sender opened.payload := by
  unfold NodeConfig.openLocal at opens
  rw [secure] at opens
  cases flag : item.packet.header.isEncrypted with
  | false =>
    simp only [flag, Bool.not_true, Bool.false_eq_true, if_false, Option.some.injEq] at opens
    subst opens
    refine waiting.payload.resolve_left fun flagged => ?_
    rw [flag] at flagged
    cases flagged
  | true =>
    simp only [flag, Bool.not_true, Bool.false_eq_true, if_false, if_true] at opens
    obtain ⟨ref, session, entry, present, accepted⟩ := decryptIfNeeded_cases opens
    obtain ⟨stored, same, ofSender⟩ := sound.entries _ ref entry
    rw [present, Option.some.injEq] at same
    subst same
    have attempted : item.packet ∈ state.attempts (.step index env) := by
      simp [NodeState.attempts, found]
    rw [← waiting.fromPeerId]
    exact (fromCall_of_decryptPayload sound genuine attempted rfl rfl present ofSender flag
      accepted).2

/-- What a filter hands to the receive loop is still sealed or already authentic. -/
theorem waiting_of_afterReceived
    (consistent : Consistent config state) {index : Nat} {received : ZCPacket}
    {liveness : Bool}
    (genuine : OpensOnlyGenuine config state (.arrive index packet liveness nowMs))
    {conn : Conn} (member : conn ∈ state.conns) (own : conn.Own config)
    (forMe : packet.header.toPeerId = config.myPeerId) (flagged : packet.header.isEncrypted = true)
    (passes : (conn.filter.afterReceived config.primitives state.table
      (LivenessStamp.strip liveness packet) nowMs).1 = .packet received) :
    Waiting config state packet.header.fromPeerId received := by
  have strips := preserves_strip liveness packet
  generalize LivenessStamp.strip liveness packet = stripped at strips passes
  have passed : Waiting config state packet.header.fromPeerId stripped :=
    ⟨strips.fromPeerId, strips.toPeerId.trans forMe, .inl (strips.isEncrypted.trans flagged)⟩
  unfold afterReceived at passes
  split at passes
  · cases passes
    exact passed
  rename_i ref decrypts
  split at passes
  · cases passes
    exact passed
  rename_i session found
  dsimp only at passes
  split at passes
  · rename_i plain accepted
    cases passes
    obtain ⟨ofConn, _, holds⟩ := decryptsWith_cases decrypts
    have peers := (consistent.bound conn member).peerId ref holds
    obtain ⟨stored, same, ofPeer⟩ := (consistent.bound conn member).session ref holds
    rw [found, Option.some.injEq] at same
    subst same
    rw [ofConn, Option.some.injEq] at peers
    rw [own.myPeerId] at accepted
    obtain ⟨header, fromCall⟩ := fromCall_of_decryptPayload consistent.table genuine
      (List.mem_singleton.mpr rfl) strips.fromPeerId strips.payload found
      (ofPeer.trans peers.symm) (strips.isEncrypted.trans flagged) accepted
    rw [strips.fromPeerId] at fromCall
    refine ⟨?_, ?_, .inr fromCall⟩
    · rw [header]
      exact strips.fromPeerId
    · rw [header]
      exact strips.toPeerId.trans forMe
  · split at passes <;> cases passes

/-- One step keeps the packets for this node trusted. -/
theorem trusted_step (secure : config.secureModeEnabled = true)
    {event : NodeEvent} (consistent : Consistent config before)
    (own : ∀ conn ∈ before.conns, conn.Own config) (evolves : Evolves before.table after.table)
    (genuine : OpensOnlyGenuine config before event) (sealed : ArrivesSealed config before event)
    (trusted : ∀ item ∈ before.items, Concerns config item → Trusted config before item)
    (transition : before.step? config event = some after)
    (member : item ∈ after.items) (concerns : Concerns config item) :
    Trusted config after item := by
  refine Trusted.mono ?_ (step_effect transition).calls evolves
  cases (step_effect transition).items item member with
  | kept old => exact trusted item old concerns
  | flushed old waits =>
    rcases trusted _ old ⟨concerns.arrived, concerns.forMe, concerns.notSkipped⟩ with
      ⟨elsewhere, _⟩ | ⟨elsewhere, _⟩ <;> cases waits.symm.trans elsewhere
  | originated => cases concerns.arrived
  | arrived found passes =>
    have noise := Entered.arrived.inj concerns.arrived
    refine .inl ⟨rfl, waiting_of_afterReceived consistent genuine (List.mem_of_getElem? found)
      (own _ (List.mem_of_getElem? found)) concerns.forMe ?_ passes⟩
    exact sealed (by simpa [found] using noise) concerns.forMe concerns.notSkipped
  | @moved index env earlier _ found moves =>
    obtain ⟨entered, source⟩ := moves.history
    have known : Trusted config before earlier := by
      obtain ⟨arrived, forMe, notSkipped⟩ := concerns
      rw [source] at forMe notSkipped
      exact trusted earlier (List.mem_of_getElem? found) ⟨entered ▸ arrived, forMe, notSkipped⟩
    cases moves with
    | stays => exact known
    | delivered at_inbox _ opens decompresses =>
      rcases known with ⟨_, waiting⟩ | ⟨elsewhere, _⟩
      · exact .inr ⟨rfl, _, waiting.openLocal secure consistent.table genuine found opens,
          decompresses⟩
      · cases at_inbox.symm.trans elsewhere
    | forwarded at_inbox notForMe | readdressed at_inbox notForMe =>
      rcases known with ⟨_, waiting⟩ | ⟨elsewhere, _⟩
      · exact absurd waiting.toPeerId notForMe
      · cases at_inbox.symm.trans elsewhere
    | passed place | buffered place | written place =>
      rcases known with ⟨elsewhere, _⟩ | ⟨elsewhere, _⟩ <;> cases place.symm.trans elsewhere
    | encrypted uses =>
      rcases known with ⟨elsewhere, _⟩ | ⟨elsewhere, _⟩ <;>
        rcases uses with ⟨place, _⟩ | place <;> cases place.symm.trans elsewhere
    | hopped leaves =>
      rcases known with ⟨elsewhere, _⟩ | ⟨elsewhere, _⟩ <;>
        rcases leaves with ⟨_, place⟩ | place <;> cases place.symm.trans elsewhere

/-- As long as what arrives for this node is flagged as encrypted, everything that reaches the peer
packet pipelines comes from a call of its sender. -/
theorem delivered_authentic_of_arrivesSealed {config : NodeConfig}
    (secure : config.secureModeEnabled = true) (aead : IsAead config.encryptionAlgorithm)
    {state : NodeState}
    (reached : (nodeSystem config).ReachableUnder (fun state event => event.AeadOnly ∧
      OpensOnlyGenuine config state event ∧ ArrivesSealed config state event) state)
    {item : Item} (member : item ∈ state.items) (delivered : item.place = .delivered)
    (arrived : item.entered = .arrived true) (forMe : item.source.header.toPeerId = config.myPeerId)
    (notSkipped : shouldSkipEncrypt item.source.header = false) :
    Authentic config state item.source.header.fromPeerId item.packet := by
  have invariant : Consistent config state ∧
      ∀ item ∈ state.items, Concerns config item → Trusted config state item := by
    refine reached.invariant_reachable (motive := fun state => Consistent config state ∧
      ∀ item ∈ state.items, Concerns config item → Trusted config state item) ?_ ?_
    · rintro state rfl
      exact ⟨Consistent.initial config, fun _ none => absurd none List.not_mem_nil⟩
    · rintro before event after earlier ⟨consistent, trusted⟩ ⟨aeadOnly, genuine, sealed⟩ transition
      obtain ⟨next, evolves⟩ := consistent.step aead aeadOnly transition
      exact ⟨next, fun item => trusted_step secure consistent (conns_own earlier) evolves genuine
        sealed trusted transition⟩
  rcases invariant.2 item member ⟨arrived, forMe, notSkipped⟩ with ⟨elsewhere, _⟩ | ⟨_, authentic⟩
  · cases delivered.symm.trans elsewhere
  · exact authentic

private def dataHeader (fromPeerId : PeerId) (flags : Byte) (len : Nat) : PeerManagerHeader where
  fromPeerId := fromPeerId
  toPeerId := 1
  packetType := PacketType.data.code
  flags := flags
  forwardCounter := 0
  reserved := 0
  len := len

private def handling : StepEnv := .reading (.through 2)

/-- A session and a connection with peer 2. -/
private def meetsPeer : List NodeEvent :=
  [.respond ⟨"net", 2⟩ none "aes-gcm" none 7 0, .connect .own 2 (some 0)]

private def sealedPayload : Bytes :=
  [42] ++ AeadTail.asBytes { tag := List.replicate 16 0
                             nonce := SecureDatagramSession.NonceParts.bytes ⟨0, 0⟩ }

private def sealedRun : List NodeEvent :=
  meetsPeer ++ [.encrypted ⟨2, 1, 7, ⟨0, 0⟩, [42]⟩,
    .arrive 0 ⟨dataHeader 2 1 1, sealedPayload⟩ false 0, .step 0 handling]

theorem sealed_packet_delivered_authentic :
    ∃ state, (nodeSystem (.secureNode 1)).Reachable state ∧
      ∃ item ∈ state.items, item.place = .delivered ∧
        item.packet.payload = [42] ∧
        Authentic (.secureNode 1) state item.source.header.fromPeerId item.packet := by
  obtain ⟨state, reached, member⟩ : ∃ state, (nodeSystem (.secureNode 1)).ReachableUnder
      (fun state event => event.AeadOnly ∧ OpensOnlyGenuine (.secureNode 1) state event ∧
        ArrivesSealed (.secureNode 1) state event) state ∧ _ :=
    System.exists_reachableUnder .initial sealedRun (fun state => ⟨.delivered,
      ⟨dataHeader 2 0 1, [42]⟩, .arrived true, ⟨dataHeader 2 1 1, sealedPayload⟩⟩ ∈ state.items)
      rfl (by decide +kernel) fun _ _ => id
  exact ⟨state, reached.reachable, _, member, rfl, rfl, delivered_authentic_of_arrivesSealed rfl
    (by decide) reached member rfl rfl rfl (by decide)⟩

/-! ## Packets with a clear flag -/

/-- Peer 2 sends a packet in the name of peer 3, who never sealed anything. -/
theorem unsealed_packet_delivered :
    ∃ state, (nodeSystem (.secureNode 1)).ReachableUnder (fun state event => event.AeadOnly ∧
        OpensOnlyGenuine (.secureNode 1) state event) state ∧
      ∃ item ∈ state.items, item.place = .delivered ∧ item.entered = .arrived true ∧
        item.source.header.toPeerId = 1 ∧ shouldSkipEncrypt item.source.header = false ∧
        ¬ Authentic (.secureNode 1) state item.source.header.fromPeerId item.packet := by
  refine System.exists_reachableUnder .initial
    (meetsPeer ++ [.arrive 0 ⟨dataHeader 3 0 1, [66]⟩ false 0, .step 0 handling])
    (fun state => ⟨.delivered, ⟨dataHeader 3 0 1, [66]⟩, .arrived true, ⟨dataHeader 3 0 1, [66]⟩⟩ ∈
      state.items ∧ state.calls = []) rfl (by decide +kernel) ?_
  rintro state _ ⟨member, uncalled⟩
  refine ⟨_, member, rfl, rfl, rfl, by decide, ?_⟩
  rintro ⟨opened, ⟨call, made, _⟩, _⟩
  rw [uncalled] at made
  cases made

end EasyTier.Peers
