import EasyTier.Tunnel.RxSlots
import Mathlib.Logic.Function.Basic

/-! # Peer sessions and their store

A store keeps at most one session for each network and peer. The responder of a handshake
answers from its store, the initiator installs the answer in its own. A session handed out by
the store is the entry itself, so what a later step of the handshake records on it is recorded in
the entry. The time of last use, which only decides when an unused entry is dropped, is left out.
-/

namespace EasyTier.Peers

open Data Packet Tunnel

/-- The 32 bytes of a Noise static public key, as one word. -/
abbrev StaticPubkey := BitVec 256

/-- A session, bound to the static key of the peer once that is known. -/
structure PeerSession where
  peerId : PeerId
  peerStaticPubkey : Option StaticPubkey
  datagram : SecureDatagramSession
  invalidated : Bool
  deriving DecidableEq

open PeerSession

variable {checked : PeerSession} {peerStaticPubkey : Option StaticPubkey}

namespace PeerSession

variable (session : PeerSession)

def new (peerId : PeerId) (rootKey : RootKey) (sessionGeneration initialEpoch : Nat)
    (sendCipherAlgorithm recvCipherAlgorithm : String) (peerStaticPubkey : Option StaticPubkey)
    (nowMs : Nat) : PeerSession :=
  { peerId := peerId
    peerStaticPubkey := peerStaticPubkey
    datagram := .new rootKey sessionGeneration initialEpoch sendCipherAlgorithm recvCipherAlgorithm
      nowMs
    invalidated := false }

def invalidate : PeerSession :=
  { session with invalidated := true, datagram := session.datagram.invalidate }

def isValid : Bool := !session.invalidated && session.datagram.isValid

def sessionGeneration : Nat := session.datagram.sessionGeneration

def rootKey : RootKey := session.datagram.rootKey

def nextSyncEpoch : Nat := session.datagram.nextSyncEpoch

def checkEncryptAlgoSame (sendAlgorithm recvAlgorithm : String) : Except SessionError Unit :=
  session.datagram.checkEncryptAlgoSame sendAlgorithm recvAlgorithm

/-- `check_or_set_peer_static_pubkey`: no key is no check, a recorded key must match, and the
first key is recorded. -/
def checkOrSetPeerStaticPubkey (peerStaticPubkey : Option StaticPubkey) :
    Except SessionError PeerSession :=
  match peerStaticPubkey, session.peerStaticPubkey with
  | none, _ => .ok session
  | some pubkey, some existing =>
    if existing ≠ pubkey then .error (.message "peer static pubkey mismatch") else .ok session
  | some pubkey, none => .ok { session with peerStaticPubkey := some pubkey }

def syncRootKey (rootKey : RootKey)
    (sessionGeneration initialEpoch : Nat) (preserveRxGrace : Bool) (nowMs : Nat) : PeerSession :=
  { session with
    datagram := session.datagram.syncRootKey rootKey sessionGeneration initialEpoch
      preserveRxGrace nowMs }

/-- `dir_for_sender`. -/
def dirForSender (senderPeerId receiverPeerId : PeerId) : SecureDatagramDirection :=
  if senderPeerId < receiverPeerId then .aToB else .bToA

def encryptPayload (primitives : Primitives) (session : PeerSession)
    (senderPeerId receiverPeerId : PeerId) (packet : ZCPacket) (nowMs : Nat) :
    Except SessionError ZCPacket × PeerSession :=
  if !session.isValid then
    (.error (.message "session invalidated"), session)
  else
    let (result, datagram) := session.datagram.encryptPayload primitives
      (dirForSender senderPeerId receiverPeerId) packet nowMs
    (result, { session with datagram := datagram })

def decryptPayload (primitives : Primitives) (session : PeerSession)
    (senderPeerId receiverPeerId : PeerId) (packet : ZCPacket) (nowMs : Nat) :
    Except SessionError ZCPacket × PeerSession :=
  if !session.isValid then
    (.error (.message "session invalidated"), session)
  else
    let (result, datagram) := session.datagram.decryptPayload primitives
      (dirForSender senderPeerId receiverPeerId) packet nowMs
    (result, { session with datagram := datagram })

variable {session : PeerSession}

/-- A session hands a packet that is flagged already on as it came. -/
theorem encryptPayload_of_flagged {primitives : Primitives}
    {senderPeerId receiverPeerId : PeerId} {packet sealed : ZCPacket} {nowMs : Nat}
    (flagged : packet.header.isEncrypted = true)
    (encrypts : (session.encryptPayload primitives senderPeerId receiverPeerId packet nowMs).1 =
      .ok sealed) : sealed = packet := by
  unfold encryptPayload at encrypts
  split at encrypts
  · cases encrypts
  unfold SecureDatagramSession.encryptPayload at encrypts
  dsimp only at encrypts
  split at encrypts
  · cases encrypts
  split at encrypts
  · cases encrypts
  rename_i sealed done
  cases encrypts
  exact Encryptor.encryptWithNonce_of_flagged flagged done

/-- Recording a static key touches nothing else. -/
theorem checkOrSetPeerStaticPubkey_frame
    (passed : session.checkOrSetPeerStaticPubkey peerStaticPubkey = .ok checked) :
    ∃ recorded, checked = { session with peerStaticPubkey := recorded } ∧
      (recorded = session.peerStaticPubkey ∨ recorded = peerStaticPubkey) := by
  unfold checkOrSetPeerStaticPubkey at passed
  split at passed
  · cases passed
    exact ⟨_, rfl, .inl rfl⟩
  · split at passed
    · cases passed
    cases passed
    exact ⟨_, rfl, .inl rfl⟩
  · cases passed
    exact ⟨_, rfl, .inr rfl⟩

/-- A key that passes the check is the recorded one from then on. -/
theorem checkOrSetPeerStaticPubkey_some {pubkey : StaticPubkey}
    (passed : session.checkOrSetPeerStaticPubkey (some pubkey) = .ok checked) :
    checked.peerStaticPubkey = some pubkey := by
  cases recorded : session.peerStaticPubkey with
  | none =>
    simp only [checkOrSetPeerStaticPubkey, recorded, Except.ok.injEq] at passed
    rw [← passed]
  | some existing =>
    simp only [checkOrSetPeerStaticPubkey, recorded] at passed
    split at passed
    · cases passed
    rename_i same
    cases passed
    rw [recorded, not_ne_iff.mp same]

end PeerSession

inductive PeerSessionAction where
  | join
  | sync
  | create
  deriving DecidableEq

structure SessionKey where
  networkName : String
  peerId : PeerId
  deriving DecidableEq

/-- The sessions of a store, by network and peer. -/
abbrev PeerSessionStore := SessionKey → Option PeerSession

/-- What the responder puts into its answer. -/
structure UpsertResponderSessionReturn where
  action : PeerSessionAction
  sessionGeneration : Nat
  rootKey : Option RootKey
  initialEpoch : Nat
  deriving DecidableEq

variable (store : PeerSessionStore) (key : SessionKey)

namespace PeerSessionStore

def insert (session : PeerSession) :
    PeerSessionStore :=
  Function.update store key (some session)

def remove : PeerSessionStore :=
  Function.update store key none

/-- The entry of a key, if it is valid. -/
def valid? : Option PeerSession :=
  (store key).filter (·.isValid)

/-- `get`: an invalid entry is removed and not returned. -/
def get : Option PeerSession × PeerSessionStore :=
  match store key with
  | none => (none, store)
  | some session => if session.isValid then (some session, store) else (none, store.remove key)

/-- `upsert_responder_session`; `newRootKey` is the key drawn if a session is created. -/
def upsertResponderSession
    (aSessionGeneration : Option Nat) (sendAlgorithm recvAlgorithm : String)
    (peerStaticPubkey : Option StaticPubkey) (newRootKey : RootKey) (nowMs : Nat) :
    Except SessionError UpsertResponderSessionReturn × PeerSessionStore :=
  match store.valid? key with
  | none =>
    (.ok { action := .create, sessionGeneration := 1, rootKey := some newRootKey,
           initialEpoch := 0 },
      store.insert key (.new key.peerId newRootKey 1 0 sendAlgorithm recvAlgorithm
        peerStaticPubkey nowMs))
  | some session =>
    match session.checkEncryptAlgoSame sendAlgorithm recvAlgorithm with
    | .error error => (.error error, store)
    | .ok _ =>
      match session.checkOrSetPeerStaticPubkey peerStaticPubkey with
      | .error error => (.error error, store)
      | .ok session =>
        let store := store.insert key session
        if aSessionGeneration = some session.sessionGeneration then
          (.ok { action := .join, sessionGeneration := session.sessionGeneration, rootKey := none,
                 initialEpoch := 0 }, store)
        else
          (.ok { action := .sync, sessionGeneration := session.sessionGeneration,
                 rootKey := some session.rootKey, initialEpoch := session.nextSyncEpoch }, store)

/-- The `Join` branch of `apply_initiator_action`; the static key is recorded before the
generations are compared. -/
def applyJoin (bSessionGeneration : Nat)
    (sendAlgorithm recvAlgorithm : String) (peerStaticPubkey : Option StaticPubkey) :
    Except SessionError Unit × PeerSessionStore :=
  match store.get key with
  | (none, store) => (.error (.message "no local session for JOIN"), store)
  | (some session, store) =>
    match session.checkEncryptAlgoSame sendAlgorithm recvAlgorithm with
    | .error error => (.error error, store)
    | .ok _ =>
      match session.checkOrSetPeerStaticPubkey peerStaticPubkey with
      | .error error => (.error error, store)
      | .ok session =>
        let store := store.insert key session
        if session.sessionGeneration ≠ bSessionGeneration then
          (.error (.message "JOIN generation mismatch"), store)
        else
          (.ok (), store)

/-- The `Sync` and `Create` branch of `apply_initiator_action`. -/
def applyRootKey (preserveRxGrace : Bool)
    (bSessionGeneration : Nat) (rootKey : RootKey) (initialEpoch : Nat)
    (sendAlgorithm recvAlgorithm : String) (peerStaticPubkey : Option StaticPubkey)
    (nowMs : Nat) : Except SessionError Unit × PeerSessionStore :=
  let session := (store.valid? key).getD (.new key.peerId rootKey bSessionGeneration initialEpoch
    sendAlgorithm recvAlgorithm peerStaticPubkey nowMs)
  let store := store.insert key session
  match session.checkEncryptAlgoSame sendAlgorithm recvAlgorithm with
  | .error error => (.error error, store)
  | .ok _ =>
    match session.checkOrSetPeerStaticPubkey peerStaticPubkey with
    | .error error => (.error error, store)
    | .ok session =>
      (.ok (), store.insert key (session.syncRootKey rootKey bSessionGeneration initialEpoch
        preserveRxGrace nowMs))

/-- `apply_initiator_action`. -/
def applyInitiatorAction
    (action : PeerSessionAction) (bSessionGeneration : Nat) (rootKey : Option RootKey)
    (initialEpoch : Nat) (sendAlgorithm recvAlgorithm : String)
    (peerStaticPubkey : Option StaticPubkey) (nowMs : Nat) :
    Except SessionError Unit × PeerSessionStore :=
  match action, rootKey with
  | .join, _ =>
    store.applyJoin key bSessionGeneration sendAlgorithm recvAlgorithm peerStaticPubkey
  | .sync, none | .create, none => (.error (.message "missing root_key"), store)
  | .sync, some rootKey =>
    store.applyRootKey key true bSessionGeneration rootKey initialEpoch sendAlgorithm recvAlgorithm
      peerStaticPubkey nowMs
  | .create, some rootKey =>
    store.applyRootKey key false bSessionGeneration rootKey initialEpoch sendAlgorithm
      recvAlgorithm peerStaticPubkey nowMs

variable {session : PeerSession}

theorem valid?_eq_some {store : PeerSessionStore} {key : SessionKey} :
    store.valid? key = some session ↔ store key = some session ∧ session.isValid = true := by
  simp [valid?, Option.filter_eq_some_iff]

@[simp] theorem insert_self (session : PeerSession) :
    store.insert key session key = some session := by
  simp [insert]

/-- The entry of a key is gone, or is the one before except that the given static key may have been
recorded on it. -/
def KeepsEntry (before after : PeerSessionStore) (key : SessionKey)
    (peerStaticPubkey : Option StaticPubkey) : Prop :=
  after key = none ∨ ∃ session recorded, before key = some session ∧
    after key = some { session with peerStaticPubkey := recorded } ∧
    (recorded = session.peerStaticPubkey ∨ recorded = peerStaticPubkey)

theorem KeepsEntry.of_eq {before after : PeerSessionStore} {key : SessionKey}
    (same : after key = before key) (peerStaticPubkey : Option StaticPubkey) :
    KeepsEntry before after key peerStaticPubkey := by
  cases found : before key with
  | none => exact .inl (same.trans found)
  | some session => exact .inr ⟨session, _, found, same.trans found, .inl rfl⟩

/-- A responder refuses and changes nothing, creates a session, or answers from the valid one. -/
theorem upsertResponderSession_cases
    (aSessionGeneration : Option Nat) (sendAlgorithm recvAlgorithm : String)
    (peerStaticPubkey : Option StaticPubkey) (newRootKey : RootKey) (nowMs : Nat) :
    (∃ error, store.upsertResponderSession key aSessionGeneration sendAlgorithm recvAlgorithm
      peerStaticPubkey newRootKey nowMs = (.error error, store)) ∨
    (store.valid? key = none ∧
      store.upsertResponderSession key aSessionGeneration sendAlgorithm recvAlgorithm
        peerStaticPubkey newRootKey nowMs =
        (.ok ⟨.create, 1, some newRootKey, 0⟩,
          store.insert key (.new key.peerId newRootKey 1 0 sendAlgorithm recvAlgorithm
            peerStaticPubkey nowMs))) ∨
    (∃ session recorded, store.valid? key = some session ∧
      session.checkEncryptAlgoSame sendAlgorithm recvAlgorithm = .ok () ∧
      session.checkOrSetPeerStaticPubkey peerStaticPubkey =
        .ok { session with peerStaticPubkey := recorded } ∧
      store.upsertResponderSession key aSessionGeneration sendAlgorithm recvAlgorithm
        peerStaticPubkey newRootKey nowMs =
        (.ok (if aSessionGeneration = some session.sessionGeneration then
            ⟨.join, session.sessionGeneration, none, 0⟩
          else
            ⟨.sync, session.sessionGeneration, some session.rootKey, session.nextSyncEpoch⟩),
          store.insert key { session with peerStaticPubkey := recorded })) := by
  unfold upsertResponderSession
  cases found : store.valid? key with
  | none => exact .inr (.inl ⟨rfl, rfl⟩)
  | some session =>
    dsimp only
    cases algorithms : session.checkEncryptAlgoSame sendAlgorithm recvAlgorithm with
    | error error => exact .inl ⟨error, rfl⟩
    | ok _ =>
      cases passed : session.checkOrSetPeerStaticPubkey peerStaticPubkey with
      | error error => exact .inl ⟨error, rfl⟩
      | ok checked =>
        obtain ⟨recorded, rfl, _⟩ := checkOrSetPeerStaticPubkey_frame passed
        refine .inr (.inr ⟨session, recorded, rfl, algorithms, passed, ?_⟩)
        by_cases same : aSessionGeneration = some session.sessionGeneration
        · rw [if_pos same]
          exact if_pos same
        · rw [if_neg same]
          exact if_neg same

/-- A session that passed the checks and starts afresh under a root key: valid, counting from zero
in the given epoch, with nothing received yet. -/
structure Installs (session : PeerSession) (generation : Nat) (rootKey : RootKey) (epoch : Nat)
    (sendAlgorithm recvAlgorithm : String) (pubkey : Option StaticPubkey) : Prop where
  valid : session.isValid = true
  generation : session.sessionGeneration = generation
  rootKey : session.rootKey = rootKey
  sendEpoch : session.datagram.sendEpoch = epoch
  sendSeq : session.datagram.sendSeq = .both 0
  rxSlots : session.datagram.rxSlots = RxSlots.default
  keyCache : session.datagram.keyCache = .both (.both .default)
  algorithms : session.checkEncryptAlgoSame sendAlgorithm recvAlgorithm = .ok ()
  pubkey : session.checkOrSetPeerStaticPubkey pubkey = .ok session

theorem get_entry :
    (store.get key).2 key = none ∨ (store.get key).2 key = store key := by
  unfold get
  split
  · exact .inr rfl
  · split
    · exact .inr rfl
    · simp [remove]

theorem fst_get :
    (store.get key).1 = store.valid? key := by
  unfold get valid?
  cases store key with
  | none => rfl
  | some session => cases valid : session.isValid <;> simp [valid, Option.filter]

/-- A join keeps the entry; if it is accepted, the entry is valid and of the named generation. -/
theorem applyJoin_cases (bSessionGeneration : Nat)
    (sendAlgorithm recvAlgorithm : String) (peerStaticPubkey : Option StaticPubkey) :
    KeepsEntry store (store.applyJoin key bSessionGeneration sendAlgorithm recvAlgorithm
        peerStaticPubkey).2 key peerStaticPubkey ∧
      ((store.applyJoin key bSessionGeneration sendAlgorithm recvAlgorithm
        peerStaticPubkey).1 = .ok () →
        ∃ session, store.valid? key = some session ∧
          session.sessionGeneration = bSessionGeneration) := by
  have keeps : KeepsEntry store (store.get key).2 key peerStaticPubkey := by
    rcases store.get_entry key with gone | same
    · exact .inl gone
    · exact .of_eq same _
  have first := store.fst_get key
  unfold applyJoin
  generalize store.get key = got at keeps first
  obtain ⟨found, after⟩ := got
  cases found with
  | none => exact ⟨keeps, fun accepted => by cases accepted⟩
  | some session =>
    dsimp only at keeps first ⊢
    split
    · exact ⟨keeps, fun accepted => by cases accepted⟩
    split
    · exact ⟨keeps, fun accepted => by cases accepted⟩
    rename_i checked passed
    obtain ⟨recorded, rfl, origin⟩ := checkOrSetPeerStaticPubkey_frame passed
    have stored : store key = some session := (valid?_eq_some.mp first.symm).1
    have inserted : KeepsEntry store
        (after.insert key { session with peerStaticPubkey := recorded }) key peerStaticPubkey :=
      .inr ⟨session, recorded, stored, by simp, origin⟩
    split
    · exact ⟨inserted, fun accepted => by cases accepted⟩
    · rename_i generation
      exact ⟨inserted, fun _ => ⟨session, first.symm, not_not.mp generation⟩⟩

theorem insert_eq_self {store : PeerSessionStore} {key : SessionKey}
    (stored : store key = some session) : store.insert key session = store := by
  rw [insert, ← stored, Function.update_eq_self]

/-- Checks passed once pass again on the session they leave. -/
private theorem checkOrSet_again
    (passed : session.checkOrSetPeerStaticPubkey peerStaticPubkey = .ok checked) :
    checked.checkOrSetPeerStaticPubkey peerStaticPubkey = .ok checked := by
  unfold checkOrSetPeerStaticPubkey at passed ⊢
  cases peerStaticPubkey with
  | none => rfl
  | some pubkey =>
    cases recorded : session.peerStaticPubkey with
    | none =>
      simp only [recorded] at passed
      cases passed
      simp
    | some existing =>
      simp only [recorded] at passed
      split at passed
      · cases passed
      rename_i same
      cases passed
      simp only [recorded]
      exact if_neg same

/-- Installing a root key fails on the checks of a valid entry and changes nothing, or leaves a
session that starts afresh under the key. -/
theorem applyRootKey_cases (preserveRxGrace : Bool)
    (bSessionGeneration : Nat) (rootKey : RootKey) (initialEpoch : Nat)
    (sendAlgorithm recvAlgorithm : String) (peerStaticPubkey : Option StaticPubkey) (nowMs : Nat) :
    (∃ error session, store.valid? key = some session ∧
      (session.checkEncryptAlgoSame sendAlgorithm recvAlgorithm = .error error ∨
        session.checkOrSetPeerStaticPubkey peerStaticPubkey = .error error) ∧
      store.applyRootKey key preserveRxGrace bSessionGeneration rootKey initialEpoch sendAlgorithm
        recvAlgorithm peerStaticPubkey nowMs = (.error error, store)) ∨
    (∃ session, Installs session bSessionGeneration rootKey initialEpoch sendAlgorithm
        recvAlgorithm peerStaticPubkey ∧
      session.peerId = ((store.valid? key).map (·.peerId)).getD key.peerId ∧
      store.applyRootKey key preserveRxGrace bSessionGeneration rootKey initialEpoch sendAlgorithm
        recvAlgorithm peerStaticPubkey nowMs = (.ok (), store.insert key session)) := by
  have installs : ∀ base checked : PeerSession, base.isValid = true →
      base.checkEncryptAlgoSame sendAlgorithm recvAlgorithm = .ok () →
      base.checkOrSetPeerStaticPubkey peerStaticPubkey = .ok checked →
      Installs (checked.syncRootKey rootKey bSessionGeneration initialEpoch preserveRxGrace nowMs)
        bSessionGeneration rootKey initialEpoch sendAlgorithm recvAlgorithm peerStaticPubkey := by
    intro base checked valid algorithms passed
    have again := checkOrSet_again passed
    obtain ⟨recorded, rfl, _⟩ := checkOrSetPeerStaticPubkey_frame passed
    refine ⟨valid, rfl, rfl, rfl, rfl, rfl, rfl, algorithms, ?_⟩
    unfold checkOrSetPeerStaticPubkey syncRootKey at *
    dsimp only at *
    split at again
    · rfl
    · split at again
      · cases again
      rename_i same
      rw [if_neg same]
    · cases again
  unfold applyRootKey
  cases found : store.valid? key with
  | some existing =>
    obtain ⟨stored, valid⟩ := valid?_eq_some.mp found
    simp only [Option.getD_some, insert_eq_self stored]
    cases algorithms : existing.checkEncryptAlgoSame sendAlgorithm recvAlgorithm with
    | error error => exact .inl ⟨error, existing, rfl, .inl algorithms, rfl⟩
    | ok _ =>
      cases passed : existing.checkOrSetPeerStaticPubkey peerStaticPubkey with
      | error error => exact .inl ⟨error, existing, rfl, .inr passed, rfl⟩
      | ok checked =>
        obtain ⟨recorded, same, _⟩ := checkOrSetPeerStaticPubkey_frame passed
        refine .inr ⟨_, installs existing checked valid algorithms passed, ?_, rfl⟩
        rw [same]
        rfl
  | none =>
    -- a new entry passes its own checks
    simp only [Option.getD_none]
    generalize created : new key.peerId rootKey bSessionGeneration initialEpoch
      sendAlgorithm recvAlgorithm peerStaticPubkey nowMs = fresh
    have algorithms : fresh.checkEncryptAlgoSame sendAlgorithm recvAlgorithm = .ok () := by
      simp [← created, checkEncryptAlgoSame, new,
        SecureDatagramSession.checkEncryptAlgoSame, SecureDatagramSession.new]
    have passed : fresh.checkOrSetPeerStaticPubkey peerStaticPubkey = .ok fresh := by
      cases peerStaticPubkey <;> simp [← created, checkOrSetPeerStaticPubkey, new]
    have valid : fresh.isValid = true := by
      simp [← created, isValid, new, SecureDatagramSession.isValid, SecureDatagramSession.new]
    simp only [algorithms, passed, insert, Function.update_idem]
    refine .inr ⟨_, installs fresh fresh valid algorithms passed, ?_, rfl⟩
    rw [← created]
    rfl

end PeerSessionStore

end EasyTier.Peers
