import EasyTier.Peers.Handshake
import EasyTier.Semantics.System

/-! # The peers of a node and their connections

A node keeps one peer object for each peer id, and in it the connections to that peer, the identity
type and the public key they share. A connection is added by a task of its own, which looks the
peer up, checks and records the identity, starts the connection and enters it, and, if it had to
make a new peer, registers that one last. A listener task for each peer removes closed connections
and forgets the identity with the last of them. Tasks run side by side; here they take turns at
every access to something they share.
-/

namespace EasyTier.Peers

open Data Packet Semantics

/-! ## Connections and peers -/

/-- A connection after its handshake, which has told the peer id. -/
abbrev HandshakenConn := { conn : PeerConn // conn.info.isSome = true }

namespace HandshakenConn

def peerId (conn : HandshakenConn) : PeerId := (conn.val.info.get conn.property).myPeerId

def identityType (conn : HandshakenConn) : PeerIdentityType := conn.val.getPeerIdentityType

def publicKey (conn : HandshakenConn) : Bytes := conn.val.noiseRemoteStaticPubkey

end HandshakenConn

/-- The parts of a peer object that tasks share. -/
structure Peer (ConnId : Type) where
  conns : List ConnId := []
  peerIdentityType : Option PeerIdentityType := none
  peerPublicKey : Option Bytes := none

/-- How far the task that adds a connection has come; `fresh` is a peer it has made itself. -/
inductive AddCall where
  | idle
  /-- There was an entry for the peer id. -/
  | found
  /-- About to read the identity type. -/
  | checking (peer : Nat) (fresh : Bool)
  /-- There was no identity type. -/
  | storing (peer : Nat) (fresh : Bool)
  | keying (peer : Nat) (fresh : Bool)
  /-- About to start the connection and to enter it. -/
  | starting (peer : Nat) (fresh : Bool)
  | registering (peer : Nat)
  | accepted
  | failed
  deriving DecidableEq

/-- How far the close listener of a peer has come with an event. -/
inductive CloseListener where
  | idle
  | removed
  | clearingType
  | clearingKey
  deriving DecidableEq

/-- The state that the tasks work on. `removed` marks the connections of a peer that `close_peer`
has taken out of the map. -/
structure PeerMapState (ConnId : Type) where
  peers : Nat → Peer ConnId
  nextPeer : Nat
  peerMap : PeerId → Option Nat
  calls : ConnId → AddCall
  listeners : Nat → CloseListener
  closed : ConnId → Bool
  removed : ConnId → Bool

open PeerMapState

namespace PeerMapState

variable {ConnId : Type} (state : PeerMapState ConnId)

def start : PeerMapState ConnId where
  peers _ := {}
  nextPeer := 0
  peerMap _ := none
  calls _ := .idle
  listeners _ := .idle
  closed _ := false
  removed _ := false

def updatePeer (peer : Nat) (change : Peer ConnId → Peer ConnId) : PeerMapState ConnId :=
  { state with peers := Function.update state.peers peer (change (state.peers peer)) }

def setListener (peer : Nat) (listener : CloseListener) : PeerMapState ConnId :=
  { state with listeners := Function.update state.listeners peer listener }

def register (peerId : PeerId) (peer : Option Nat) : PeerMapState ConnId :=
  { state with peerMap := Function.update state.peerMap peerId peer }

variable [DecidableEq ConnId] (state : PeerMapState ConnId)

def setCall (connId : ConnId) (call : AddCall) : PeerMapState ConnId :=
  { state with calls := Function.update state.calls connId call }

@[simp] theorem setCall_peers (connId : ConnId) (call : AddCall) :
    (state.setCall connId call).peers = state.peers := rfl

/-! ## Steps -/

/-- The next step of `add_new_peer_conn` for a connection. -/
def advance (connId : ConnId) (conn : HandshakenConn) : Option (PeerMapState ConnId) :=
  match state.calls connId with
  | .idle =>
    match state.peerMap conn.peerId with
    | none =>
      some ({ state with nextPeer := state.nextPeer + 1 }.setCall connId
        (.checking state.nextPeer true))
    | some _ => some (state.setCall connId .found)
  | .found =>
    -- The peer is looked up once more, and unwrapped.
    match state.peerMap conn.peerId with
    | none => some (state.setCall connId .failed)
    | some peer => some (state.setCall connId (.checking peer false))
  | .checking peer fresh =>
    match (state.peers peer).peerIdentityType with
    | none => some (state.setCall connId (.storing peer fresh))
    | some identityType =>
      if identityType ≠ conn.identityType then some (state.setCall connId .failed)
      else some (state.setCall connId (.keying peer fresh))
  | .storing peer fresh =>
    some ((state.updatePeer peer fun peer =>
      { peer with peerIdentityType := some conn.identityType }).setCall connId (.keying peer fresh))
  | .keying peer fresh =>
    match (state.peers peer).peerPublicKey with
    | none =>
      some ((state.updatePeer peer fun peer =>
        { peer with peerPublicKey := some conn.publicKey }).setCall connId (.starting peer fresh))
    | some publicKey =>
      if publicKey ≠ conn.publicKey then some (state.setCall connId .failed)
      else some (state.setCall connId (.starting peer fresh))
  | .starting peer fresh =>
    some ((state.updatePeer peer fun peer => { peer with conns := peer.conns ++ [connId] }).setCall
      connId (if fresh then .registering peer else .accepted))
  | .registering peer => some ((state.register conn.peerId (some peer)).setCall connId .accepted)
  | .accepted | .failed => none

/-- The listener of a peer takes the close event of a connection. -/
def removeConn (peer : Nat) (connId : ConnId) : Option (PeerMapState ConnId) :=
  if state.listeners peer = .idle ∧ state.closed connId = true ∧
      connId ∈ (state.peers peer).conns then
    some ((state.updatePeer peer fun peer =>
      { peer with conns := peer.conns.filter (· ≠ connId) }).setListener peer .removed)
  else none

/-- The next step of a listener that has removed a connection. -/
def advanceListener (peer : Nat) : Option (PeerMapState ConnId) :=
  match state.listeners peer with
  | .idle => none
  | .removed =>
    some (state.setListener peer
      (if (state.peers peer).conns.isEmpty then .clearingType else .idle))
  | .clearingType =>
    some ((state.updatePeer peer fun peer => { peer with peerIdentityType := none }).setListener
      peer .clearingKey)
  | .clearingKey =>
    some ((state.updatePeer peer fun peer => { peer with peerPublicKey := none }).setListener peer
      .idle)

def close (connId : ConnId) : PeerMapState ConnId :=
  { state with closed := Function.update state.closed connId true }

/-- `close_peer`, with a mark on the connections of the peer. -/
def closePeer (peerId : PeerId) : PeerMapState ConnId :=
  match state.peerMap peerId with
  | none => state
  | some peer =>
    { state.register peerId none with
      removed := fun connId => state.removed connId || (state.peers peer).conns.contains connId }

/-- The steps of calls, connections and listeners. -/
inductive PeerMapAction (ConnId : Type) where
  | advance (connId : ConnId)
  | close (connId : ConnId)
  | removeConn (peer : Nat) (connId : ConnId)
  | advanceListener (peer : Nat)
  | closePeer (peerId : PeerId)

def step (conns : ConnId → HandshakenConn) (state : PeerMapState ConnId)
    (action : PeerMapAction ConnId) : Option (PeerMapState ConnId) :=
  match action with
  | .advance connId => state.advance connId (conns connId)
  | .close connId => some (state.close connId)
  | .removeConn peer connId => state.removeConn peer connId
  | .advanceListener peer => state.advanceListener peer
  | .closePeer peerId => some (state.closePeer peerId)

end PeerMapState

/-- Any number of connections that are added, closed and removed in any order. -/
def peerMapSystem {ConnId : Type} [DecidableEq ConnId] (conns : ConnId → HandshakenConn) :
    System (PeerMapState ConnId) (PeerMapState.PeerMapAction ConnId) :=
  .ofStep (· = .start) (PeerMapState.step conns)

/-! ## What is to hold -/

namespace PeerMapState

variable {ConnId : Type} (conns : ConnId → HandshakenConn) (state : PeerMapState ConnId)

/-- The connection is entered in the peer that is registered for its peer id. -/
def Entered (connId : ConnId) : Prop :=
  ∃ peer, state.peerMap (conns connId).peerId = some peer ∧ connId ∈ (state.peers peer).conns

/-- A connection that was accepted stays entered until it is closed or its peer is. -/
def StaysRegistered : Prop :=
  ∀ connId, state.calls connId = .accepted → state.closed connId = false →
    state.removed connId = false → state.Entered conns connId

/-- The connections of a registered peer have one identity. -/
def OneIdentity : Prop :=
  ∀ peerId peer, state.peerMap peerId = some peer →
    ∀ first ∈ (state.peers peer).conns, ∀ second ∈ (state.peers peer).conns,
      (conns first).identityType = (conns second).identityType ∧
      (conns first).publicKey = (conns second).publicKey

/-- A step that no other task has got in the way of: an identity type is stored where there still is
none; a connection is entered in a peer that still is registered, or was never, and still has the
identity that was checked; a new peer is registered where there still is none; and an identity is
forgotten while there still is no connection. -/
def orderly (state : PeerMapState ConnId) : PeerMapAction ConnId → Bool
  | .advance connId =>
    match state.calls connId with
    | .storing peer _ => (state.peers peer).peerIdentityType.isNone
    | .starting peer fresh =>
      (fresh || state.peerMap (conns connId).peerId == some peer) &&
      (state.peers peer).peerIdentityType == some (conns connId).identityType &&
      (state.peers peer).peerPublicKey == some (conns connId).publicKey
    | .registering _ => (state.peerMap (conns connId).peerId).isNone
    | _ => true
  | .advanceListener peer =>
    match state.listeners peer with
    | .clearingType | .clearingKey => (state.peers peer).conns.isEmpty
    | _ => true
  | _ => true

end PeerMapState

/-! ## One identity -/

/-- Where there is a connection, the identity of all of them is recorded. -/
def Peer.Recorded {ConnId : Type} (conns : ConnId → HandshakenConn) (peer : Peer ConnId) : Prop :=
  ∀ connId ∈ peer.conns, peer.peerIdentityType = some (conns connId).identityType ∧
    peer.peerPublicKey = some (conns connId).publicKey

namespace PeerMapState

variable {ConnId : Type} {conns : ConnId → HandshakenConn} {state after : PeerMapState ConnId}
  {peer : Nat} {connId : ConnId} {change : Peer ConnId → Peer ConnId}

theorem recorded_updatePeer (recorded : ∀ peer, (state.peers peer).Recorded conns)
    (changed : (change (state.peers peer)).Recorded conns) (other : Nat) :
    ((state.updatePeer peer change).peers other).Recorded conns := by
  by_cases same : other = peer
  · subst same
    simpa [updatePeer] using changed
  · simpa [updatePeer, same] using recorded other

variable [DecidableEq ConnId] {action : PeerMapAction ConnId}

/-! ## Staying registered -/

/-- Accepted connections are entered, and so is the one whose new peer is about to be registered. -/
structure Registered (conns : ConnId → HandshakenConn) (state : PeerMapState ConnId) : Prop where
  accepted : state.StaysRegistered conns
  registering : ∀ connId peer, state.calls connId = .registering peer →
    state.closed connId = false → connId ∈ (state.peers peer).conns

omit [DecidableEq ConnId] in
/-- What a step has to keep: marks stay, no open connection is taken out of a peer, no peer of a
connection without a mark out of the map, and a call that goes on leaves its connection entered. -/
theorem Registered.keep (registered : state.Registered conns)
    (closed : ∀ connId, after.closed connId = false → state.closed connId = false)
    (removed : ∀ connId, after.removed connId = false → state.removed connId = false)
    (entries : ∀ peer connId, connId ∈ (state.peers peer).conns → after.closed connId = false →
      connId ∈ (after.peers peer).conns)
    (map : ∀ connId peer, state.peerMap (conns connId).peerId = some peer →
      connId ∈ (state.peers peer).conns → after.removed connId = false →
      after.peerMap (conns connId).peerId = some peer)
    (accepts : ∀ connId, after.calls connId = .accepted → state.calls connId ≠ .accepted →
      after.closed connId = false → after.Entered conns connId)
    (registers : ∀ connId peer, after.calls connId = .registering peer →
      state.calls connId ≠ .registering peer → after.closed connId = false →
      connId ∈ (after.peers peer).conns) : after.Registered conns where
  accepted connId called opened unmarked := by
    by_cases earlier : state.calls connId = .accepted
    · obtain ⟨peer, mapped, entered⟩ :=
        registered.accepted connId earlier (closed connId opened) (removed connId unmarked)
      exact ⟨peer, map connId peer mapped entered unmarked, entries peer connId entered opened⟩
    · exact accepts connId called earlier opened
  registering connId peer called opened := by
    by_cases earlier : state.calls connId = .registering peer
    · exact entries peer connId (registered.registering connId peer earlier (closed connId opened))
        opened
    · exact registers connId peer called earlier opened

/-- A step of a call that neither enters nor registers anything. -/
theorem Registered.setCall (registered : state.Registered conns) {call : AddCall}
    (accepted : call ≠ .accepted) (registering : ∀ peer, call ≠ .registering peer) :
    (state.setCall connId call).Registered conns := by
  refine registered.keep (fun _ same => same) (fun _ same => same) (fun _ _ entered _ => entered)
    (fun _ _ mapped _ _ => mapped) ?_ ?_
  · intro other called earlier
    by_cases same : other = connId
    · subst same
      exact absurd (by simpa [setCall] using called) accepted
    · exact absurd (by simpa [PeerMapState.setCall, same] using called) earlier
  · intro other peer called earlier
    by_cases same : other = connId
    · subst same
      exact absurd (by simpa [setCall] using called) (registering peer)
    · exact absurd (by simpa [PeerMapState.setCall, same] using called) earlier

omit [DecidableEq ConnId] in
/-- A change of a peer that keeps its open connections. -/
theorem Registered.updatePeer (registered : state.Registered conns)
    (keeps : ∀ connId ∈ (state.peers peer).conns, state.closed connId = false →
      connId ∈ (change (state.peers peer)).conns) :
    (state.updatePeer peer change).Registered conns := by
  refine registered.keep (fun _ same => same) (fun _ same => same) ?_
    (fun _ _ mapped _ _ => mapped) (fun _ called earlier => absurd called earlier)
    (fun _ _ called earlier => absurd called earlier)
  intro other connId entered opened
  by_cases same : other = peer
  · subst same
    simpa [updatePeer] using keeps connId entered opened
  · simpa [PeerMapState.updatePeer, same] using entered

section

variable (registered : state.Registered conns)
include registered

omit [DecidableEq ConnId] in
theorem Registered.setListener
    {listener : CloseListener} : (state.setListener peer listener).Registered conns :=
  ⟨registered.accepted, registered.registering⟩

/-- A connection is entered in a peer that is registered, or that its task registers next. -/
theorem Registered.start {fresh : Bool}
    (present : fresh = true ∨ state.peerMap (conns connId).peerId = some peer) :
    ((state.updatePeer peer fun peer => { peer with conns := peer.conns ++ [connId] }).setCall
      connId (if fresh then .registering peer else .accepted)).Registered conns := by
  have entered : connId ∈ ((state.updatePeer peer fun peer =>
      { peer with conns := peer.conns ++ [connId] }).peers peer).conns := by
    simp [PeerMapState.updatePeer]
  have grown : (state.updatePeer peer fun peer =>
      { peer with conns := peer.conns ++ [connId] }).Registered conns :=
    registered.updatePeer fun _ member _ => List.mem_append_left _ member
  refine grown.keep (fun _ same => same) (fun _ same => same) (fun _ _ entered _ => entered)
    (fun _ _ mapped _ _ => mapped) ?_ ?_
  · intro other called earlier _
    by_cases same : other = connId
    · subst same
      rcases present with own | mapped
      · simp [PeerMapState.setCall, own] at called
      · exact ⟨peer, mapped, entered⟩
    · exact absurd (by simpa [PeerMapState.setCall, same] using called) earlier
  · intro other registered' called earlier _
    by_cases same : other = connId
    · subst same
      cases fresh with
      | false => simp [PeerMapState.setCall] at called
      | true =>
        have : peer = registered' := by simpa [PeerMapState.setCall] using called
        subst this
        exact entered
    · exact absurd (by simpa [PeerMapState.setCall, same] using called) earlier

/-- A new peer is registered where there is none. -/
theorem Registered.register (called : state.calls connId = .registering peer)
    (free : state.peerMap (conns connId).peerId = none) :
    ((state.register (conns connId).peerId (some peer)).setCall connId .accepted).Registered
      conns := by
  refine registered.keep (fun _ same => same) (fun _ same => same) (fun _ _ entered _ => entered)
    ?_ ?_ ?_
  · intro other found mapped _ _
    by_cases same : (conns other).peerId = (conns connId).peerId
    · rw [same, free] at mapped
      cases mapped
    · simpa [PeerMapState.setCall, PeerMapState.register, same] using mapped
  · intro other accepted earlier opened
    by_cases same : other = connId
    · subst same
      exact ⟨peer, by simp [PeerMapState.setCall, PeerMapState.register],
        registered.registering other peer called opened⟩
    · exact absurd (by simpa [PeerMapState.setCall, PeerMapState.register, same] using accepted)
        earlier
  · intro other found registering earlier
    by_cases same : other = connId
    · subst same
      simp [PeerMapState.setCall] at registering
    · exact absurd (by simpa [PeerMapState.setCall, PeerMapState.register, same] using registering)
        earlier

theorem registered_closePeer (peerId : PeerId) : (state.closePeer peerId).Registered conns := by
  unfold closePeer
  cases found : state.peerMap peerId with
  | none => exact registered
  | some peer =>
    refine registered.keep (fun _ same => same) ?_ (fun _ _ entered _ => entered) ?_
      (fun _ called earlier => absurd called earlier)
      (fun _ _ called earlier => absurd called earlier)
    · intro connId unmarked
      exact (Bool.or_eq_false_iff.mp unmarked).1
    · intro connId other mapped entered unmarked
      by_cases same : (conns connId).peerId = peerId
      · subst same
        cases found.symm.trans mapped
        have outside := (Bool.or_eq_false_iff.mp unmarked).2
        simp [entered] at outside
      · simpa [register, same] using mapped

end

/-- The invariant of the orderly runs. -/
structure Kept (conns : ConnId → HandshakenConn) (state : PeerMapState ConnId) : Prop where
  registered : state.Registered conns
  recorded : ∀ peer, (state.peers peer).Recorded conns

section

variable (kept : state.Kept conns)
include kept

theorem Kept.setCall {call : AddCall} (accepted : call ≠ .accepted)
    (registering : ∀ peer, call ≠ .registering peer) : (state.setCall connId call).Kept conns :=
  ⟨kept.registered.setCall accepted registering, kept.recorded⟩

omit [DecidableEq ConnId] in
theorem Kept.updatePeer (keeps : ∀ connId ∈ (state.peers peer).conns, state.closed connId = false →
      connId ∈ (change (state.peers peer)).conns)
    (changed : (change (state.peers peer)).Recorded conns) :
    (state.updatePeer peer change).Kept conns :=
  ⟨kept.registered.updatePeer keeps, recorded_updatePeer kept.recorded changed⟩

omit [DecidableEq ConnId] in
theorem Kept.setListener {listener : CloseListener} :
    (state.setListener peer listener).Kept conns :=
  ⟨kept.registered.setListener, kept.recorded⟩

theorem Kept.advance (ordered : state.orderly conns (.advance connId) = true)
    (steps : state.advance connId (conns connId) = some after) : after.Kept conns := by
  unfold PeerMapState.advance at steps
  unfold orderly at ordered
  split at steps
  · split at steps
    · cases steps
      have counted : { state with nextPeer := state.nextPeer + 1 }.Kept conns :=
        ⟨⟨kept.registered.accepted, kept.registered.registering⟩, kept.recorded⟩
      exact counted.setCall (by simp) (by simp)
    · cases steps
      exact kept.setCall (by simp) (by simp)
  · split at steps
    all_goals
      cases steps
      exact kept.setCall (by simp) (by simp)
  · split at steps
    · cases steps
      exact kept.setCall (by simp) (by simp)
    · split at steps
      all_goals
        cases steps
        exact kept.setCall (by simp) (by simp)
  · rename_i peer fresh stores
    cases steps
    simp only [stores, Option.isNone_iff_eq_none] at ordered
    refine (kept.updatePeer (fun _ member _ => member) fun entered member => ?_).setCall (by simp)
      (by simp)
    cases ordered.symm.trans (kept.recorded peer entered member).1
  · rename_i peer fresh keys
    split at steps
    · rename_i keyless
      cases steps
      refine (kept.updatePeer (fun _ member _ => member) fun entered member => ?_).setCall (by simp)
        (by simp)
      cases keyless.symm.trans (kept.recorded peer entered member).2
    · split at steps
      all_goals
        cases steps
        exact kept.setCall (by simp) (by simp)
  · rename_i peer fresh starts
    cases steps
    simp only [starts, Bool.and_eq_true, Bool.or_eq_true, beq_iff_eq] at ordered
    refine ⟨kept.registered.start ordered.1.1, ?_⟩
    rw [setCall_peers]
    refine recorded_updatePeer kept.recorded fun entered member => ?_
    rcases List.mem_append.mp member with older | newest
    · exact kept.recorded peer entered older
    · rw [List.mem_singleton.mp newest]
      exact ⟨ordered.1.2, ordered.2⟩
  · rename_i peer registers
    cases steps
    simp only [registers, Option.isNone_iff_eq_none] at ordered
    exact ⟨kept.registered.register registers ordered, kept.recorded⟩
  · cases steps
  · cases steps

theorem Kept.step (ordered : state.orderly conns action = true)
    (steps : state.step conns action = some after) : after.Kept conns := by
  cases action with
  | advance connId => exact kept.advance ordered steps
  | close connId =>
    cases steps
    have opens : ∀ other, (state.close connId).closed other = false →
        state.closed other = false := by
      intro other opened
      by_cases same : other = connId
      · subst same
        simp [close] at opened
      · simpa [close, same] using opened
    refine ⟨?_, kept.recorded⟩
    exact kept.registered.keep opens (fun _ same => same) (fun _ _ entered _ => entered)
      (fun _ _ mapped _ _ => mapped) (fun _ called earlier => absurd called earlier)
      (fun _ _ called earlier => absurd called earlier)
  | removeConn peer connId =>
    simp only [PeerMapState.step, removeConn] at steps
    split at steps
    · rename_i enabled
      cases steps
      refine (kept.updatePeer (fun other member opened => ?_) fun entered member =>
        kept.recorded peer entered (List.mem_filter.mp member).1).setListener
      have different : other ≠ connId := by
        intro same
        rw [same, enabled.2.1] at opened
        cases opened
      exact List.mem_filter.mpr ⟨member, by simpa using different⟩
    · cases steps
  | advanceListener peer =>
    simp only [PeerMapState.step, advanceListener] at steps
    unfold orderly at ordered
    split at steps
    · cases steps
    · cases steps
      exact kept.setListener
    all_goals
      rename_i clears
      cases steps
      refine (kept.updatePeer (fun _ member _ => member) fun entered member => ?_).setListener
      simp only [clears, List.isEmpty_iff] at ordered
      rw [show (state.peers peer).conns = [] from ordered] at member
      cases member
  | closePeer peerId =>
    cases steps
    refine ⟨registered_closePeer kept.registered peerId, ?_⟩
    unfold closePeer
    split
    · exact kept.recorded
    · exact kept.recorded

end

end PeerMapState

/-- In every run of orderly steps, accepted connections stay registered and the connections of a
peer have one identity. -/
theorem accepted_connections_stay_registered {ConnId : Type} [DecidableEq ConnId]
    {conns : ConnId → HandshakenConn} {state : PeerMapState ConnId}
    (reached : (peerMapSystem conns).ReachableUnder
      (fun state action => state.orderly conns action = true) state) :
    state.StaysRegistered conns ∧ state.OneIdentity conns := by
  have kept : state.Kept conns := by
    refine System.ReachableUnder.invariant (motive := (·.Kept conns)) ?_ ?_ reached
    · rintro _ rfl
      refine ⟨⟨?_, ?_⟩, ?_⟩
      · rintro connId ⟨⟩
      · rintro connId peer ⟨⟩
      · rintro peer connId ⟨⟩
    · exact fun before action after kept ordered steps => kept.step ordered steps
  refine ⟨kept.registered.accepted, fun peerId peer _ first entered second entered' => ?_⟩
  obtain ⟨type, key⟩ := kept.recorded peer first entered
  obtain ⟨type', key'⟩ := kept.recorded peer second entered'
  exact ⟨Option.some.inj (type.symm.trans type'), Option.some.inj (key.symm.trans key')⟩

/-! Connections to peer 7 with one key: number 2 is a credential, the others are admins. -/

def sampleConn (connId : Nat) : HandshakenConn :=
  ⟨{ myPeerId := 3
     info := some { myPeerId := 7, features := [], networkName := "net", networkSecretDigest := [] }
     noiseHandshakeResult := some
      { peerId := 7
        session := { networkName := "net", peerId := 7 }
        localStaticPubkey := [5]
        remoteStaticPubkey := [9]
        secureAuthLevel := .peerVerified
        peerIdentityType := if connId = 2 then .credential else .admin
        remoteNetworkName := "net"
        secretDigest := []
        clientSecretProof := none
        remoteFeatures := [] }
     isClient := some false }, rfl⟩

open PeerMapState in
/-- Two connections that both find no peer: the second new peer takes the place of the first. -/
def overtakingAdds : List (PeerMapAction Nat) :=
  [.advance 0, .advance 1] ++ List.replicate 5 (.advance 0) ++ List.replicate 5 (.advance 1)

open PeerMapState in
/-- A connection that is entered in a peer which has been closed meanwhile. -/
def addAfterClose : List (PeerMapAction Nat) :=
  List.replicate 6 (.advance 0) ++ List.replicate 4 (.advance 1) ++ [.closePeer 7, .advance 1]

open PeerMapState in
/-- Two connections that both find a peer without an identity. -/
def twoIdentities : List (PeerMapAction Nat) :=
  List.replicate 6 (.advance 0) ++
    [.close 0, .removeConn 0 0, .advanceListener 0, .advanceListener 0, .advanceListener 0] ++
    List.replicate 3 (.advance 1) ++ List.replicate 3 (.advance 2) ++
      List.replicate 3 (.advance 1) ++
    List.replicate 3 (.advance 2)

/-- An accepted connection is in no registered peer. -/
abbrev PeerMapState.Lost (conns : Nat → HandshakenConn) (state : PeerMapState Nat) (connId : Nat) :
    Prop :=
  state.calls connId = .accepted ∧ state.closed connId = false ∧ state.removed connId = false ∧
    (state.peerMap (conns connId).peerId).all
      (fun peer => !(state.peers peer).conns.contains connId) = true

theorem PeerMapState.not_staysRegistered {conns : Nat → HandshakenConn} {state : PeerMapState Nat}
    {connId : Nat} (lost : state.Lost conns connId) : ¬state.StaysRegistered conns := by
  obtain ⟨accepted, opened, unmarked, outside⟩ := lost
  intro stays
  obtain ⟨peer, mapped, entered⟩ := stays connId accepted opened unmarked
  simp [mapped, entered] at outside

/-- Accepted connections are lost to a second new peer and to a closed one, and two connections of a
peer have different identities. -/
theorem connections_lost_and_mixed :
    (∃ state, (peerMapSystem sampleConn).Reachable state ∧
      System.run? (PeerMapState.step sampleConn) .start overtakingAdds = some state ∧
      ¬state.StaysRegistered sampleConn) ∧
    (∃ state, (peerMapSystem sampleConn).Reachable state ∧
      System.run? (PeerMapState.step sampleConn) .start addAfterClose = some state ∧
      ¬state.StaysRegistered sampleConn) ∧
    ∃ state, (peerMapSystem sampleConn).Reachable state ∧
      System.run? (PeerMapState.step sampleConn) .start twoIdentities = some state ∧
      ¬state.OneIdentity sampleConn := by
  refine ⟨?_, ?_, ?_⟩
  · exact System.exists_reachable .start overtakingAdds (PeerMapState.Lost sampleConn · 0) rfl
      (by decide +kernel) fun state _ ran lost => ⟨ran, not_staysRegistered lost⟩
  · exact System.exists_reachable .start addAfterClose (PeerMapState.Lost sampleConn · 1) rfl
      (by decide +kernel) fun state _ ran lost => ⟨ran, not_staysRegistered lost⟩
  · refine System.exists_reachable .start twoIdentities
      (fun state => state.peerMap 7 = some 0 ∧ (state.peers 0).conns = [1, 2]) rfl
      (by decide +kernel)
      ?_
    rintro state _ ran ⟨mapped, entered⟩
    refine ⟨ran, fun same => ?_⟩
    have equal := same 7 0 mapped 1 (by simp [entered]) 2 (by simp [entered])
    cases equal.1

open PeerMapState in
/-- Two connections one after the other, of which the first closes. -/
def orderlyAdds : List (PeerMapAction Nat) :=
  List.replicate 6 (.advance 0) ++ List.replicate 5 (.advance 1) ++
    [.close 0, .removeConn 0 0, .advanceListener 0]

theorem orderly_adds_stay_registered :
    ∃ state, (peerMapSystem sampleConn).ReachableUnder
        (fun state action => state.orderly sampleConn action = true) state ∧
      state.calls 1 = .accepted ∧ state.StaysRegistered sampleConn ∧
      state.OneIdentity sampleConn := by
  exact System.exists_reachableUnder .start orderlyAdds (·.calls 1 = .accepted) rfl
    (by decide +kernel)
    fun state reached accepted => ⟨accepted, accepted_connections_stay_registered reached⟩

end EasyTier.Peers
