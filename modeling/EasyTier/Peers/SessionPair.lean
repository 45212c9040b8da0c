import EasyTier.Peers.PeerSession
import EasyTier.Semantics.System

/-! # Two peers and their sessions with each other

Each side holds a store with an entry for the other. Direct Noise handshakes run in both roles and
interleave freely: a message that was sent and not yet handled stays in flight, and one that is
lost stays there for good. Between handshake steps the sides encrypt and decrypt, sessions become
invalid and entries are dropped. Nonces drawn so far, root keys drawn so far and epochs started so
far are kept as history.
-/

namespace EasyTier.Peers

open Data Packet Tunnel Semantics

inductive Side where
  | left
  | right
  deriving DecidableEq

def Side.other : Side → Side
  | .left => .right
  | .right => .left

@[simp] theorem Side.other_other (side : Side) : side.other.other = side := by
  cases side <;> rfl

theorem Side.eq_or_eq_other (first second : Side) : first = second ∨ first = second.other := by
  cases first <;> cases second <;> simp [other]

/-- What the two peers are configured with. -/
structure PairConfig where
  networkName : String
  peerId : Side → PeerId
  distinct : peerId .left ≠ peerId .right
  algorithm : Side → String
  staticPubkey : Side → StaticPubkey
  primitives : Primitives

variable (config : PairConfig)

namespace PairConfig

/-- The key of the entry a side holds for the other. -/
def key (side : Side) : SessionKey :=
  { networkName := config.networkName, peerId := config.peerId side.other }

/-- The direction in which a side sends. -/
def sendDir (side : Side) : SecureDatagramDirection :=
  PeerSession.dirForSender (config.peerId side) (config.peerId side.other)

theorem peerId_other_ne (side : Side) :
    config.peerId side.other ≠ config.peerId side := by
  cases side with
  | left => exact Ne.symm config.distinct
  | right => exact config.distinct

theorem sendDir_other_ne (side : Side) :
    config.sendDir side.other ≠ config.sendDir side := by
  intro same
  simp only [sendDir, PeerSession.dirForSender, Side.other_other] at same
  rcases Nat.lt_or_gt_of_ne (config.peerId_other_ne side) with below | above
  · simp [below, Nat.lt_asymm below] at same
  · simp [above, Nat.lt_asymm above] at same

/-- Two peers for concrete runs. -/
def twoPeers : PairConfig where
  networkName := "net"
  peerId side := if side = .left then 1 else 2
  distinct := by decide
  algorithm _ := "aes-gcm"
  staticPubkey side := if side = .left then 11 else 12
  primitives := .transparent

end PairConfig

/-- The first message of a handshake, with the generation the initiator reports. -/
structure Msg1 where
  initiator : Side
  aSessionGeneration : Option Nat
  deriving DecidableEq

/-- The answer on its way to the initiator. -/
structure Msg2 where
  initiator : Side
  answer : UpsertResponderSessionReturn
  deriving DecidableEq

/-- A nonce drawn by an `encrypt_payload` call, with the root key it is used under. -/
structure NonceUse where
  rootKey : RootKey
  dir : SecureDatagramDirection
  nonce : SecureDatagramSession.NonceParts
  deriving DecidableEq

/-- Two nodes, their messages in flight and the nonces they used. -/
structure PairState where
  store : Side → PeerSessionStore
  msg1s : List Msg1
  msg2s : List Msg2
  used : List NonceUse
  rootKeys : List RootKey
  epochs : Nat

/-- Both stores are empty and nothing has happened. -/
def PairState.initial : PairState :=
  { store := fun _ _ => none, msg1s := [], msg2s := [], used := [], rootKeys := [], epochs := 0 }

/-- What the two nodes do, in any order. -/
inductive PairEvent where
  | start (initiator : Side) (hinted : Bool)
  | respond (index : Nat) (newRootKey : RootKey) (nowMs : Nat)
  | finish (index : Nat) (nowMs : Nat)
  | confirm (responder : Side)
  | encrypt (side : Side) (packet : ZCPacket) (nowMs : Nat)
  | decrypt (side : Side) (packet : ZCPacket) (nowMs : Nat)
  | invalidate (side : Side)
  | dropEntry (side : Side)

variable (state : PairState)

namespace PairState

def setStore (side : Side) (store : PeerSessionStore) : PairState :=
  { state with store := Function.update state.store side store }

/-- The entry a side holds for the other. -/
def entry (side : Side) : Option PeerSession :=
  state.store side (config.key side)

def setEntry (side : Side) (session : PeerSession) :
    PairState :=
  state.setStore side ((state.store side).insert (config.key side) session)

/-- The initiator reports the generation of its valid entry if it knows whom it dials. -/
def start (initiator : Side) (hinted : Bool) :
    PairState :=
  if hinted then
    let (session, store) := (state.store initiator).get (config.key initiator)
    { state.setStore initiator store with
      msg1s := state.msg1s ++ [⟨initiator, session.map (·.sessionGeneration)⟩] }
  else
    { state with msg1s := state.msg1s ++ [⟨initiator, none⟩] }

/-- The responder answers a first message from its store, without a static key to check. -/
def respond (index : Nat) (msg1 : Msg1)
    (newRootKey : RootKey) (nowMs : Nat) : PairState :=
  let responder := msg1.initiator.other
  let (result, store) := (state.store responder).upsertResponderSession (config.key responder)
    msg1.aSessionGeneration (config.algorithm responder) (config.algorithm msg1.initiator) none
    newRootKey nowMs
  let handled := { state.setStore responder store with msg1s := state.msg1s.eraseIdx index }
  match result with
  | .error _ => handled
  | .ok answer =>
    { handled with
      msg2s := state.msg2s ++ [⟨msg1.initiator, answer⟩]
      rootKeys := state.rootKeys ++ [newRootKey]
      epochs := state.epochs + (if answer.action = .sync then 1 else 0) }

/-- The initiator's `apply_initiator_action` on an answer, with the responder's static key. -/
def applyAnswer (msg2 : Msg2) (nowMs : Nat) :
    Except SessionError Unit × PeerSessionStore :=
  (state.store msg2.initiator).applyInitiatorAction (config.key msg2.initiator)
    msg2.answer.action msg2.answer.sessionGeneration msg2.answer.rootKey msg2.answer.initialEpoch
    (config.algorithm msg2.initiator) (config.algorithm msg2.initiator.other)
    (some (config.staticPubkey msg2.initiator.other)) nowMs

def finish (index : Nat) (msg2 : Msg2) (nowMs : Nat) :
    PairState :=
  { state.setStore msg2.initiator (state.applyAnswer config msg2 nowMs).2 with
    msg2s := state.msg2s.eraseIdx index }

/-- A call of `encrypt_payload` on a valid entry draws a nonce; a rotation starts an epoch. -/
def encrypt (side : Side) (session : PeerSession)
    (packet : ZCPacket) (nowMs : Nat) : PairState :=
  let dir := config.sendDir side
  let nonce := (session.datagram.nextNonce dir nowMs).1
  let sent := session.encryptPayload config.primitives (config.peerId side)
    (config.peerId side.other) packet nowMs
  { state.setEntry config side sent.2 with
    used := state.used ++ [⟨session.rootKey, dir, nonce⟩]
    epochs := state.epochs + (if nonce.epoch = session.datagram.sendEpoch then 0 else 1) }

/-- The packet carries a nonce the other side drew, or the receiver refuses it. -/
def Deliverable (side : Side) (session : PeerSession)
    (packet : ZCPacket) (nowMs : Nat) : Prop :=
  (∀ nonce ∈ SecureDatagramSession.parseTail packet.payload,
    ∃ use ∈ state.used, use.dir = config.sendDir side.other ∧ use.nonce = nonce) ∨
  (session.decryptPayload config.primitives (config.peerId side.other) (config.peerId side) packet
    nowMs).1.isOk = false

instance (config : PairConfig) (state : PairState) (side : Side) (session : PeerSession)
    (packet : ZCPacket) (nowMs : Nat) :
    Decidable (state.Deliverable config side session packet nowMs) :=
  inferInstanceAs (Decidable (_ ∨ _))

def decrypt (side : Side) (session : PeerSession)
    (packet : ZCPacket) (nowMs : Nat) : PairState :=
  state.setEntry config side (session.decryptPayload config.primitives
    (config.peerId side.other) (config.peerId side) packet nowMs).2

/-- The third message: the responder records the initiator's static key on its entry. -/
def confirm (responder : Side)
    (session : PeerSession) : PairState :=
  match session.checkOrSetPeerStaticPubkey (some (config.staticPubkey responder.other)) with
  | .ok recorded => state.setEntry config responder recorded
  | .error _ => state

/-- One step of either side; a root key is never drawn twice. -/
def step? : PairEvent → Option PairState
  | .start initiator hinted => some (state.start config initiator hinted)
  | .respond index newRootKey nowMs =>
    match state.msg1s[index]? with
    | none => none
    | some msg1 =>
      if newRootKey ∈ state.rootKeys then none
      else some (state.respond config index msg1 newRootKey nowMs)
  | .finish index nowMs =>
    (state.msg2s[index]?).map fun msg2 => state.finish config index msg2 nowMs
  | .confirm responder => (state.entry config responder).map (state.confirm config responder)
  | .encrypt side packet nowMs =>
    ((state.entry config side).filter (·.isValid)).map fun session =>
      state.encrypt config side session packet nowMs
  | .decrypt side packet nowMs =>
    match state.entry config side with
    | none => none
    | some session =>
      if state.Deliverable config side session packet nowMs then
        some (state.decrypt config side session packet nowMs)
      else none
  | .invalidate side =>
    (state.entry config side).map fun session => state.setEntry config side session.invalidate
  | .dropEntry side => some (state.setStore side ((state.store side).remove (config.key side)))

@[simp] theorem entry_setStore (written : Side)
    (store : PeerSessionStore) (side : Side) :
    (state.setStore written store).entry config side =
      if side = written then store (config.key side) else state.entry config side := by
  unfold entry setStore
  by_cases same : side = written
  · subst same
    simp
  · simp [same]

@[simp] theorem entry_setEntry (written : Side)
    (session : PeerSession) (side : Side) :
    (state.setEntry config written session).entry config side =
      if side = written then some session else state.entry config side := by
  rw [setEntry, entry_setStore]
  split
  · rename_i same
    rw [same, PeerSessionStore.insert_self]
  · rfl

end PairState

/-- The runs of the two peers. -/
def pairSystem : System PairState PairEvent :=
  .ofStep (· = PairState.initial) (PairState.step? config)

end EasyTier.Peers
