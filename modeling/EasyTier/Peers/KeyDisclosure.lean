import EasyTier.Peers.PeerSession
import EasyTier.Semantics.System

/-! # To whom a responder tells a root key

Direct and relayed handshakes answer from one store. A relayed handshake knows the initiator's
static key before it answers and has it checked against the recorded one. A direct handshake learns
the static key only from the third message; until then the initiator has proved nothing, and a valid
entry whose generation it does not name is answered with its root key.
-/

namespace EasyTier.Peers

open Data Packet Tunnel Semantics PeerSession

/-- What a node answers handshakes with. `admits` is the check of the remote network name that the
owner of a listener passes in. -/
structure ResponderContext where
  networkName : String
  myPeerId : PeerId
  encryptionAlgorithm : String
  admits : String → Bool
  primitives : Primitives

open ResponderContext

/-- The fields of `PeerConnNoiseMsg1Pb` that decide the answer. -/
structure PeerConnNoiseMsg1 where
  aNetworkName : String
  aSessionGeneration : Option Nat
  clientEncryptionAlgorithm : String
  deriving DecidableEq

/-- The fields of `RelayNoiseMsg1Pb` that decide the answer. -/
structure RelayNoiseMsg1 where
  aSessionGeneration : Option Nat
  clientEncryptionAlgorithm : String
  deriving DecidableEq

inductive HandshakeError where
  | networkRefused
  | weAreInitiator
  | remoteStaticPubkeyNotFound
  | initiatorStaticPubkeyMismatch
  | session (error : SessionError)

/-- A second message that carries a root key: the static key recorded on the session whose key it
is, and the static key the initiator has proved to own before. -/
structure Disclosure where
  recorded : Option StaticPubkey
  proved : Option StaticPubkey
  deriving DecidableEq

/-- The owner of a session with a recorded key is the one who is told its root key. -/
def Disclosure.Earned (disclosure : Disclosure) : Prop :=
  ∀ pubkey, disclosure.recorded = some pubkey → disclosure.proved = some pubkey

/-- The sessions, the handshakes under way and the keys handed out. -/
structure ResponderState where
  store : PeerSessionStore
  pendingHandshakes : List PeerId
  disclosed : List Disclosure

variable (context : ResponderContext)

namespace ResponderContext

def directKey (msg1 : PeerConnNoiseMsg1) (remotePeerId : PeerId) : SessionKey :=
  { networkName := msg1.aNetworkName, peerId := remotePeerId }

def relayKey (remotePeerId : PeerId) : SessionKey :=
  { networkName := context.networkName, peerId := remotePeerId }

/-- `do_noise_handshake_as_server` up to its second message. The peer id is the one the sender put
into the header, and no static key is known yet. -/
def answerDirect (store : PeerSessionStore) (remotePeerId : PeerId)
    (msg1 : PeerConnNoiseMsg1) (newRootKey : RootKey) (nowMs : Nat) :
    Except HandshakeError UpsertResponderSessionReturn × PeerSessionStore :=
  if !context.admits msg1.aNetworkName then
    (.error .networkRefused, store)
  else
    let (result, store) := store.upsertResponderSession (directKey msg1 remotePeerId)
      msg1.aSessionGeneration context.encryptionAlgorithm msg1.clientEncryptionAlgorithm none
      newRootKey nowMs
    (result.mapError .session, store)

/-- Whether a relayed handshake is answered although one of our own is pending: the smaller peer id
stays initiator. -/
def yieldsTo (pending : List PeerId) (remotePeerId : PeerId) : Bool :=
  if remotePeerId ∈ pending then remotePeerId < context.myPeerId else true

/-- `handle_relay_msg1` up to its answer. `remoteStatic` is the static key the first message
authenticates, `expected` the one the route information has for the peer. -/
def answerRelay (store : PeerSessionStore) (pending : List PeerId)
    (remotePeerId : PeerId) (expected : Option StaticPubkey) (remoteStatic : StaticPubkey)
    (msg1 : RelayNoiseMsg1) (newRootKey : RootKey) (nowMs : Nat) :
    Except HandshakeError UpsertResponderSessionReturn × PeerSessionStore :=
  if !context.yieldsTo pending remotePeerId then
    (.error .weAreInitiator, store)
  else
    match expected with
    | none => (.error .remoteStaticPubkeyNotFound, store)
    | some expected =>
      if remoteStatic ≠ expected then
        (.error .initiatorStaticPubkeyMismatch, store)
      else
        let (result, store) := store.upsertResponderSession (context.relayKey remotePeerId)
          msg1.aSessionGeneration context.encryptionAlgorithm msg1.clientEncryptionAlgorithm
          (some remoteStatic) newRootKey nowMs
        (result.mapError .session, store)

end ResponderContext

/-- What an answer from the entry of a key tells to an initiator who proved the given key. -/
def disclosures (key : SessionKey) (proved : Option StaticPubkey)
    (answered : Except HandshakeError UpsertResponderSessionReturn × PeerSessionStore) :
    List Disclosure :=
  match answered with
  | (.error _, _) => []
  | (.ok answer, store) =>
    (answer.rootKey.map fun _ =>
      { recorded := (store key).bind (·.peerStaticPubkey), proved := proved }).toList

/-- Everything that can happen to the store of a node: answers in both kinds of handshake, the third
message of a direct one, the node's own handshakes as initiator, traffic, and loss of entries. -/
inductive ResponderEvent where
  | directMsg1 (remotePeerId : PeerId) (msg1 : PeerConnNoiseMsg1) (newRootKey : RootKey)
      (nowMs : Nat)
  | directMsg3 (key : SessionKey) (remoteStatic : StaticPubkey)
  | relayMsg1 (remotePeerId : PeerId) (expected : Option StaticPubkey)
      (remoteStatic : StaticPubkey) (msg1 : RelayNoiseMsg1) (newRootKey : RootKey) (nowMs : Nat)
  | relayStart (dstPeerId : PeerId)
  | relayEnd (dstPeerId : PeerId)
  | initiated (key : SessionKey) (action : PeerSessionAction) (bSessionGeneration : Nat)
      (rootKey : Option RootKey) (initialEpoch : Nat) (serverEncryptionAlgorithm : String)
      (remoteStatic : Option StaticPubkey) (nowMs : Nat)
  | get (key : SessionKey)
  | remove (key : SessionKey)
  | invalidate (key : SessionKey)
  | encrypt (key : SessionKey) (packet : ZCPacket) (nowMs : Nat)
  | decrypt (key : SessionKey) (packet : ZCPacket) (nowMs : Nat)

variable (state : ResponderState)

namespace ResponderState

/-- Changing the session of an entry in place. -/
def modify (key : SessionKey) (change : PeerSession → PeerSession) :
    ResponderState :=
  match state.store key with
  | none => state
  | some session => { state with store := state.store.insert key (change session) }

def step : ResponderEvent → ResponderState
  | .directMsg1 remotePeerId msg1 newRootKey nowMs =>
    let answered := context.answerDirect state.store remotePeerId msg1 newRootKey nowMs
    { state with
      store := answered.2
      disclosed := state.disclosed ++
        disclosures (directKey msg1 remotePeerId) none answered }
  | .directMsg3 key remoteStatic =>
    state.modify key fun session =>
      match session.checkOrSetPeerStaticPubkey (some remoteStatic) with
      | .ok recorded => recorded
      | .error _ => session
  | .relayMsg1 remotePeerId expected remoteStatic msg1 newRootKey nowMs =>
    let answered := context.answerRelay state.store state.pendingHandshakes remotePeerId expected
      remoteStatic msg1 newRootKey nowMs
    { store := answered.2
      pendingHandshakes :=
        if context.yieldsTo state.pendingHandshakes remotePeerId then
          state.pendingHandshakes.erase remotePeerId
        else state.pendingHandshakes
      disclosed := state.disclosed ++
        disclosures (context.relayKey remotePeerId) (some remoteStatic) answered }
  | .relayStart dstPeerId =>
    { state with pendingHandshakes := state.pendingHandshakes.insert dstPeerId }
  | .relayEnd dstPeerId =>
    { state with pendingHandshakes := state.pendingHandshakes.erase dstPeerId }
  | .initiated key action bSessionGeneration rootKey initialEpoch serverEncryptionAlgorithm
      remoteStatic nowMs =>
    { state with
      store := (state.store.applyInitiatorAction key action bSessionGeneration rootKey initialEpoch
        context.encryptionAlgorithm serverEncryptionAlgorithm remoteStatic nowMs).2 }
  | .get key => { state with store := (state.store.get key).2 }
  | .remove key => { state with store := state.store.remove key }
  | .invalidate key => state.modify key (·.invalidate)
  | .encrypt key packet nowMs =>
    state.modify key fun session => (session.encryptPayload context.primitives context.myPeerId
      key.peerId packet nowMs).2
  | .decrypt key packet nowMs =>
    state.modify key fun session => (session.decryptPayload context.primitives key.peerId
      context.myPeerId packet nowMs).2

/-- A direct handshake meets no valid entry with a recorded key, unless it names the entry's
generation or the algorithms differ. -/
def MeetsNoOwner : ResponderEvent → Prop
  | .directMsg1 remotePeerId msg1 _ _ =>
    context.admits msg1.aNetworkName = true →
      ∀ session ∈ state.store.valid? (directKey msg1 remotePeerId),
        session.peerStaticPubkey = none ∨
        msg1.aSessionGeneration = some session.sessionGeneration ∨
        (session.checkEncryptAlgoSame context.encryptionAlgorithm
          msg1.clientEncryptionAlgorithm).isOk = false
  | _ => True

instance (context : ResponderContext) (state : ResponderState) (event : ResponderEvent) :
    Decidable (state.MeetsNoOwner context event) := by
  unfold MeetsNoOwner
  cases_type ResponderEvent <;> infer_instance

@[simp] theorem disclosed_modify (key : SessionKey)
    (change : PeerSession → PeerSession) : (state.modify key change).disclosed =
      state.disclosed := by
  unfold modify
  split <;> rfl

end ResponderState

/-- The runs of a node's store, from an empty one. -/
def responderSystem : System ResponderState ResponderEvent :=
  .ofStep (· = { store := fun _ => none, pendingHandshakes := [], disclosed := [] })
    fun state event => some (state.step context event)

/-- A relayed handshake tells a key only to an initiator who proved the recorded static key. -/
theorem relay_earned (store : PeerSessionStore)
    (pending : List PeerId) (remotePeerId : PeerId) (expected : Option StaticPubkey)
    (remoteStatic : StaticPubkey) (msg1 : RelayNoiseMsg1) (newRootKey : RootKey) (nowMs : Nat) :
    ∀ disclosure ∈ disclosures (context.relayKey remotePeerId) (some remoteStatic)
      (context.answerRelay store pending remotePeerId expected remoteStatic msg1 newRootKey nowMs),
      disclosure.Earned := by
  unfold answerRelay
  split
  · nofun
  split
  · nofun
  split
  · nofun
  rcases store.upsertResponderSession_cases (context.relayKey remotePeerId)
      msg1.aSessionGeneration context.encryptionAlgorithm msg1.clientEncryptionAlgorithm
      (some remoteStatic) newRootKey nowMs with
    ⟨error, refused⟩ | ⟨_, created⟩ | ⟨session, recorded, _, _, passed, answered⟩
  · rw [refused]
    nofun
  · rw [created]
    intro disclosure member pubkey same
    simp only [disclosures, Except.mapError, Option.map_some, Option.toList_some,
      List.mem_singleton] at member
    subst member
    simpa [new] using same
  · -- the recorded key is the one that passed the check
    have owner := checkOrSetPeerStaticPubkey_some passed
    rw [answered]
    intro disclosure member pubkey same
    obtain ⟨_, _, rfl⟩ := Option.map_eq_some_iff.mp (Option.mem_toList.mp member)
    simp_all

/-- A direct handshake tells its keys to owners only, exactly if it meets no owner. -/
theorem direct_earned_iff
    (remotePeerId : PeerId) (msg1 : PeerConnNoiseMsg1) (newRootKey : RootKey) (nowMs : Nat) :
    (∀ disclosure ∈ disclosures (directKey msg1 remotePeerId) none
      (context.answerDirect state.store remotePeerId msg1 newRootKey nowMs),
      disclosure.Earned) ↔
      state.MeetsNoOwner context (.directMsg1 remotePeerId msg1 newRootKey nowMs) := by
  simp only [ResponderState.MeetsNoOwner, answerDirect]
  cases context.admits msg1.aNetworkName with
  | false => simp [disclosures]
  | true =>
    simp only [Bool.not_true, Bool.false_eq_true, if_false, forall_const,
      PeerSessionStore.upsertResponderSession]
    cases state.store.valid? (directKey msg1 remotePeerId) with
    | none => simp [disclosures, Except.mapError, Disclosure.Earned, new]
    | some session =>
      dsimp only
      cases algorithms : session.checkEncryptAlgoSame context.encryptionAlgorithm
          msg1.clientEncryptionAlgorithm with
      | error error => simp [disclosures, Except.mapError, algorithms, Except.isOk, Except.toBool]
      | ok _ =>
        -- no key is given, so none is compared with the recorded one
        simp only [checkOrSetPeerStaticPubkey]
        by_cases same : msg1.aSessionGeneration = some session.sessionGeneration
        · simp [disclosures, Except.mapError, same]
        · cases recorded : session.peerStaticPubkey with
          | none => simp [disclosures, Except.mapError, Disclosure.Earned, same, recorded]
          | some owner =>
            simp [disclosures, Except.mapError, Disclosure.Earned, same, recorded, algorithms,
              Except.isOk, Except.toBool]

/-- In every run in which direct handshakes meet no entry with an owner, a root key of a session
with a recorded static key is told only to initiators who have proved that key. -/
theorem disclosures_earned_of_meetsNoOwner (context : ResponderContext) {state : ResponderState}
    (reached : (responderSystem context).ReachableUnder
      (ResponderState.MeetsNoOwner context) state) :
    ∀ disclosure ∈ state.disclosed, disclosure.Earned := by
  refine reached.invariant
    (motive := fun state => ∀ disclosure ∈ state.disclosed, disclosure.Earned) ?_ ?_
  · rintro _ rfl
    nofun
  · rintro before event _ earned allowed ⟨rfl⟩
    cases event with
    | directMsg1 remotePeerId msg1 newRootKey nowMs =>
      intro disclosure member
      rcases List.mem_append.mp member with old | new
      · exact earned disclosure old
      · exact (direct_earned_iff context before remotePeerId msg1 newRootKey nowMs).mpr allowed
          disclosure new
    | relayMsg1 remotePeerId expected remoteStatic msg1 newRootKey nowMs =>
      intro disclosure member
      rcases List.mem_append.mp member with old | new
      · exact earned disclosure old
      · exact relay_earned _ _ _ _ _ _ _ _ _ disclosure new
    | directMsg3 | invalidate | encrypt | decrypt =>
      simp only [ResponderState.step, ResponderState.disclosed_modify]
      exact earned
    | relayStart | relayEnd | initiated | get | remove => exact earned

private def listening : ResponderContext where
  networkName := "net"
  myPeerId := 1
  encryptionAlgorithm := "aes-gcm"
  admits _ := true
  primitives := .transparent

private def dialOf (generation : Option Nat) : PeerConnNoiseMsg1 where
  aNetworkName := "net"
  aSessionGeneration := generation
  clientEncryptionAlgorithm := "aes-gcm"

private def nothingStored : ResponderState :=
  { store := fun _ => none, pendingHandshakes := [], disclosed := [] }

private def answerStep (event : ResponderEvent) : Option ResponderState :=
  some (state.step listening event)

/-- Peer 5 connects and proves key 11, joins with a second connection, and shakes hands once more
over a relay. -/
private def ownerRun : List ResponderEvent :=
  [.directMsg1 5 (dialOf none) 7 1000, .directMsg3 ⟨"net", 5⟩ 11,
    .directMsg1 5 (dialOf (some 1)) 8 1001,
    .relayMsg1 5 (some 11) 11 ⟨none, "aes-gcm"⟩ 9 1002]

theorem disclosures_earned_in_owner_run :
    ∃ state, System.run? (System.restrict (ResponderState.MeetsNoOwner listening) answerStep)
        nothingStored ownerRun = some state ∧
      state.disclosed = [⟨none, none⟩, ⟨some 11, some 11⟩] ∧
      ∀ disclosure ∈ state.disclosed, disclosure.Earned := by
  refine System.exists_of_run? _ _ (·.disclosed = [⟨none, none⟩, ⟨some 11, some 11⟩])
    (by decide +kernel) fun state ran disclosed => ⟨disclosed, ?_⟩
  exact disclosures_earned_of_meetsNoOwner listening
    (System.reachableUnder_of_run? (.start rfl) ran)

/-- Anyone who claims to be peer 5 in a first message is told the key of peer 5's session. -/
theorem key_told_to_unproved_dialer :
    ∃ state, System.run? answerStep nothingStored
        [.directMsg1 5 (dialOf none) 7 1000, .directMsg3 ⟨"net", 5⟩ 11,
          .directMsg1 5 (dialOf none) 8 1001] = some state ∧
      (responderSystem listening).Reachable state ∧
      (listening.answerDirect state.store 5 (dialOf none) 8 1001).1.toOption.map (·.rootKey) =
        some (some 7) ∧
      ∃ disclosure ∈ state.disclosed, ¬ disclosure.Earned := by
  refine System.exists_of_run? _ _ (fun state => ⟨some 11, none⟩ ∈ state.disclosed ∧
    (listening.answerDirect state.store 5 (dialOf none) 8 1001).1.toOption.map (·.rootKey) =
      some (some 7)) (by decide +kernel) ?_
  rintro state ran ⟨told, answered⟩
  refine ⟨System.reachable_of_run? rfl ran, answered, ⟨some 11, none⟩, told, fun earned => ?_⟩
  cases earned 11 rfl

end EasyTier.Peers
