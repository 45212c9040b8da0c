import EasyTier.Data.AssocMap
import EasyTier.Peers.Admission
import EasyTier.Semantics.System

/-! # The networks a node relays

A node that relays other networks keeps one entry for each of them, with the peers it has there, and
a table that lists for each peer the networks it is in. A connection is added by a task of its own:
it looks whether the network is there, gets or makes the entry and lists its peer, prepares a new
entry, starts its event handler, and adds the connection under the lock of the entry. It looks the
peer up, enters the connection there, and registers the peer if it had to make one. Peers are
closed without the lock. The handler of an entry closes the peers without connections, unlists the
peers that have gone and removes the entry with the last of them. Tasks take turns at everything
they share, and an event is issued after the change it tells of.
-/

namespace EasyTier.Peers

open Data Packet Semantics

/-- What `add_peer_conn` reads off a connection. -/
structure ForeignConn where
  peerId : PeerId
  myPeerId : PeerId
  network : NetworkIdentity
  identityType : PeerIdentityType

/-- The name of the network a connection is in. -/
def ForeignConn.networkName (conn : ForeignConn) : String := conn.network.networkName

/-- The events of an entry that its handler acts on. -/
inductive PeerContextEvent where
  | peerRemoved (peerId : PeerId)
  | peerConnRemoved
  deriving DecidableEq

/-- The task that clears up after the peers of an entry. -/
inductive EventHandler where
  | notStarted
  /-- Marked as started and not subscribed yet; a handler that cannot subscribe stays so. -/
  | starting
  | running
  | exited
  deriving DecidableEq

/-- How far a handler is with `clean_peer_without_conn` of an entry: the peers to look at, and those
that were found without a connection and are to be closed. -/
inductive Clearing where
  | listing (entry : Nat)
  | looking (entry : Nat) (unseen unconnected : List PeerId)

/-- An entry; `unissued` are the events of changes that have been made. -/
structure ForeignNetworkEntry where
  network : NetworkIdentity
  myPeerId : PeerId
  peerMap : AList fun _ : PeerId => Nat := ∅
  handler : EventHandler := .notStarted
  unissued : List PeerContextEvent := []
  events : List PeerContextEvent := []
  clearing : Option Clearing := none
  locked : Bool := false

/-- A peer of an entry, to which it tells what becomes of its connections. -/
structure ForeignPeer (ConnId : Type) where
  entry : Nat := 0
  conns : List ConnId := []

/-- How far the task that adds a connection has come. `created` says that it made the entry, so
that it takes it back if it fails; `trusted` that the key of its connection was trusted in the
network; `fresh` that it made the peer. -/
inductive ForeignCall where
  | idle
  /-- The network is there, or the connection may establish it. -/
  | checked
  /-- The entry is registered and is being prepared. -/
  | preparing (entry : Nat)
  | entered (entry : Nat) (created : Bool)
  | subscribing (entry : Nat) (created : Bool)
  /-- Waiting for the lock of the entry. -/
  | waiting (entry : Nat) (created : Bool)
  | locked (entry : Nat) (created trusted : Bool)
  /-- There was a peer. -/
  | found (entry : Nat) (created : Bool)
  /-- About to check the identity, to start the connection and to enter it. -/
  | connecting (entry : Nat) (created : Bool) (peer : Nat) (fresh : Bool)
  | registering (entry peer : Nat)
  | failing (created : Bool)
  | accepted
  | failed
  deriving DecidableEq

/-- The manager, its calls and the peer maps of its networks. -/
structure ForeignState (ConnId : Type) where
  entries : Nat → ForeignNetworkEntry
  nextEntry : Nat
  peers : Nat → ForeignPeer ConnId
  nextPeer : Nat
  networkPeerMaps : String → Option Nat
  peerNetworkMap : PeerId → String → Bool
  calls : ConnId → ForeignCall
  closed : ConnId → Bool

namespace ForeignState

variable {ConnId : Type} (state : ForeignState ConnId)

def start : ForeignState ConnId where
  entries _ :=
    { network := { networkName := "", networkSecret := none, networkSecretDigest := none }
      myPeerId := 0 }
  nextEntry := 0
  peers _ := {}
  nextPeer := 0
  networkPeerMaps _ := none
  peerNetworkMap _ _ := false
  calls _ := .idle
  closed _ := false

/-! ## Updates -/

def updateEntry (entry : Nat) (change : ForeignNetworkEntry → ForeignNetworkEntry) :
    ForeignState ConnId :=
  { state with entries := Function.update state.entries entry (change (state.entries entry)) }

def updatePeer (peer : Nat) (change : ForeignPeer ConnId → ForeignPeer ConnId) :
    ForeignState ConnId :=
  { state with peers := Function.update state.peers peer (change (state.peers peer)) }

def setNetwork (networkName : String) (entry : Option Nat) : ForeignState ConnId :=
  { state with networkPeerMaps := Function.update state.networkPeerMaps networkName entry }

/-- List a peer for a network, or take it off the list. -/
def setListed (peerId : PeerId) (networkName : String) (listed : Bool) : ForeignState ConnId :=
  { state with
    peerNetworkMap := fun other network =>
      if other = peerId ∧ network = networkName then listed
      else state.peerNetworkMap other network }

/-- A new entry becomes the one of its network. -/
def register (networkName : String) (fresh : ForeignNetworkEntry) : ForeignState ConnId :=
  ({ state with nextEntry := state.nextEntry + 1 }.updateEntry state.nextEntry
    fun _ => fresh).setNetwork networkName (some state.nextEntry)

/-- `remove_peer`. -/
def removePeer (peerId : PeerId) (networkName : String) : ForeignState ConnId :=
  let state := state.setListed peerId networkName false
  match state.networkPeerMaps networkName with
  | none => state
  | some entry =>
    if (state.entries entry).peerMap.keys.isEmpty then state.setNetwork networkName none else state

/-- `remove_network_if_current`. -/
def removeNetworkIfCurrent (networkName : String) (entry : Nat) : ForeignState ConnId :=
  if state.networkPeerMaps networkName = some entry then
    { state.setNetwork networkName none with
      peerNetworkMap := fun other network =>
        state.peerNetworkMap other network &&
          !(network == networkName && decide (other ∈ (state.entries entry).peerMap)) }
  else state

variable [DecidableEq ConnId] (state : ForeignState ConnId)

def setCall (connId : ConnId) (call : ForeignCall) : ForeignState ConnId :=
  { state with calls := Function.update state.calls connId call }

/-- A peer is about to leave an entry or to be replaced there; its connections close with it. -/
def dropConns (entry : Nat) (peerId : PeerId) : ForeignState ConnId :=
  let dropped := ((state.entries entry).peerMap.lookup peerId).elim [] fun peer =>
    (state.peers peer).conns
  { state with closed := fun connId => state.closed connId || dropped.contains connId }

/-! ## The steps of `add_peer_conn` -/

section Calls

variable (library : SecretLibrary) (conns : ConnId → ForeignConn) (state : ForeignState ConnId)
  (connId : ConnId)

/-- The first look; `allowed` says that the node relays the network. -/
def beginCall (allowed : Bool) : Option (ForeignState ConnId) :=
  if state.calls connId ≠ .idle then none
  else if !allowed || (conns connId).network.networkSecretDigestIsEmpty &&
      (state.networkPeerMaps (conns connId).networkName).isNone then
    some (state.setCall connId .failed)
  else some (state.setCall connId .checked)

/-- `get_or_insert_entry` up to its await. -/
def getOrInsertEntry : Option (ForeignState ConnId) :=
  if state.calls connId ≠ .checked then none
  else
    let conn := conns connId
    let got := match state.networkPeerMaps conn.networkName with
      | some entry => state.setCall connId (.entered entry false)
      | none => (state.setCall connId (.preparing state.nextEntry)).register conn.networkName
          { network := conn.network, myPeerId := conn.myPeerId }
    some (got.setListed conn.peerId conn.networkName true)

/-- The rest of `prepare`. -/
def prepared : Option (ForeignState ConnId) :=
  match state.calls connId with
  | .preparing entry => some (state.setCall connId (.entered entry true))
  | _ => none

/-- `ensure_event_handler_started` up to the mark. -/
def ensureHandler : Option (ForeignState ConnId) :=
  match state.calls connId with
  | .entered entry created =>
    if (state.entries entry).handler = .notStarted then
      some ((state.setCall connId (.subscribing entry created)).updateEntry entry fun entry =>
        { entry with handler := .starting })
    else some (state.setCall connId (.waiting entry created))
  | _ => none

/-- The rest of `ensure_event_handler_started`; from here on the handler receives events, if there
are any to subscribe to. -/
def subscribe (subscribed : Bool) : Option (ForeignState ConnId) :=
  match state.calls connId with
  | .subscribing entry created =>
    some ((state.setCall connId (.waiting entry created)).updateEntry entry fun entry =>
      if subscribed ∧ entry.handler = .starting then { entry with handler := .running } else entry)
  | _ => none

def setLocked (entry : Nat) (locked : Bool) : ForeignState ConnId :=
  state.updateEntry entry fun entry => { entry with locked := locked }

/-- `trusted` is what the call has found out about the key of its connection. -/
def acquireLock (trusted : Bool) : Option (ForeignState ConnId) :=
  match state.calls connId with
  | .waiting entry created =>
    if (state.entries entry).locked then none
    else some ((state.setCall connId (.locked entry created trusted)).setLocked entry true)
  | _ => none

/-- The checks under the lock. -/
def admits (entry : ForeignNetworkEntry) (trusted : Bool) : Bool :=
  let conn := conns connId
  let credentialTrusted := conn.network.networkSecretDigestIsEmpty && trusted
  (entry.network.sameAs library conn.network || credentialTrusted) &&
    !(credentialTrusted && conn.identityType == .admin) && entry.myPeerId == conn.myPeerId

/-- The checks under the lock, and the first look for the peer. `tooMany` says that the peer has
all the connections it may have. -/
def lookUp (tooMany : Bool) : Option (ForeignState ConnId) :=
  match state.calls connId with
  | .locked entry created trusted =>
    let present := decide ((conns connId).peerId ∈ (state.entries entry).peerMap)
    if !admits library conns connId (state.entries entry) trusted ||
        !created && present && tooMany then
      some ((state.setCall connId (.failing created)).setLocked entry false)
    else if present then some (state.setCall connId (.found entry created))
    else
      let made := (state.setCall connId (.connecting entry created state.nextPeer true)).updatePeer
        state.nextPeer fun peer => { peer with entry := entry }
      some { made with nextPeer := state.nextPeer + 1 }
  | _ => none

/-- The second look for the peer, which is unwrapped. -/
def lookUpAgain : Option (ForeignState ConnId) :=
  match state.calls connId with
  | .found entry created =>
    match (state.entries entry).peerMap.lookup (conns connId).peerId with
    | some peer => some (state.setCall connId (.connecting entry created peer false))
    | none => some ((state.setCall connId (.failing created)).setLocked entry false)
  | _ => none

/-- `Peer::add_peer_conn`; `added` says that the peer has the identity of the connection. -/
def enterConn (added : Bool) : Option (ForeignState ConnId) :=
  match state.calls connId with
  | .connecting entry created peer fresh =>
    if !added then some ((state.setCall connId (.failing created)).setLocked entry false)
    else
      let entered := state.updatePeer peer fun peer => { peer with conns := peer.conns ++ [connId] }
      if fresh then some (entered.setCall connId (.registering entry peer))
      else some ((entered.setCall connId .accepted).setLocked entry false)
  | _ => none

/-- `add_new_peer`. -/
def addNewPeer : Option (ForeignState ConnId) :=
  match state.calls connId with
  | .registering entry peer =>
    some ((((state.dropConns entry (conns connId).peerId).updateEntry entry fun entry =>
      { entry with peerMap := entry.peerMap.insert (conns connId).peerId peer }).setCall connId
        .accepted).setLocked entry false)
  | _ => none

/-- A call is dropped at one of its awaits. What undoes a new entry is in place only after the
entry has been prepared. -/
def cancel : Option (ForeignState ConnId) :=
  match state.calls connId with
  | .preparing _ => some (state.setCall connId (.failing false))
  | .waiting _ created => some (state.setCall connId (.failing created))
  | .connecting entry created _ _ =>
    some ((state.setCall connId (.failing created)).setLocked entry false)
  | _ => none

/-- The end of a call without success: a call that made the entry takes its peer back. -/
def giveUp : Option (ForeignState ConnId) :=
  match state.calls connId with
  | .failing created =>
    some ((if created then state.removePeer (conns connId).peerId (conns connId).networkName
      else state).setCall connId .failed)
  | _ => none

end Calls

/-! ## The other steps -/

/-- A connection of a peer closes. -/
def closeConn (state : ForeignState ConnId) (peer : Nat) (connId : ConnId) :
    Option (ForeignState ConnId) :=
  if connId ∈ (state.peers peer).conns then
    let closing := { state with closed := Function.update state.closed connId true }
    some ((closing.updatePeer peer fun peer =>
      { peer with conns := peer.conns.filter (· ≠ connId) }).updateEntry (state.peers peer).entry
        fun entry => { entry with unissued := entry.unissued ++ [.peerConnRemoved] })
  else none

/-- `close_peer` of an entry. -/
def closePeer (state : ForeignState ConnId) (entry : Nat) (peerId : PeerId) : ForeignState ConnId :=
  (state.dropConns entry peerId).updateEntry entry fun entry =>
    { entry with
      peerMap := entry.peerMap.erase peerId
      unissued := entry.unissued ++ [.peerRemoved peerId] }

/-- An event is issued; without a running handler nobody receives it. A peer that is dropped tells
of its connections as well. -/
def issueEvent (state : ForeignState ConnId) (entry : Nat) (event : PeerContextEvent) :
    Option (ForeignState ConnId) :=
  if event = .peerConnRemoved ∨ event ∈ (state.entries entry).unissued then
    some (state.updateEntry entry fun entry =>
      { entry with
        unissued := entry.unissued.erase event
        events := if entry.handler = .running then entry.events ++ [event] else entry.events })
  else none

/-- The handler of an entry takes its next event. -/
def handleEvent (state : ForeignState ConnId) (entry : Nat) : Option (ForeignState ConnId) :=
  if (state.entries entry).handler ≠ .running ∨ (state.entries entry).clearing.isSome then none
  else
    let networkName := (state.entries entry).network.networkName
    match (state.entries entry).events with
    | [] => none
    | .peerRemoved peerId :: events =>
      some ((state.removePeer peerId networkName).updateEntry entry fun entry =>
        { entry with events := events })
    | .peerConnRemoved :: events =>
      some (state.updateEntry entry fun entry =>
        { entry with
          events := events
          clearing := (state.networkPeerMaps networkName).map .listing })

/-- The peer is in the entry and has a connection. -/
def connected (state : ForeignState ConnId) (entry : Nat) (peerId : PeerId) : Bool :=
  ((state.entries entry).peerMap.lookup peerId).any fun peer => !(state.peers peer).conns.isEmpty

/-- The handler of an entry goes on with `clean_peer_without_conn`. -/
def clearNext (state : ForeignState ConnId) (entry : Nat) : Option (ForeignState ConnId) :=
  let next clearing := state.updateEntry entry fun entry => { entry with clearing := clearing }
  (state.entries entry).clearing.map fun
    | .listing target => next (some (.looking target (state.entries target).peerMap.keys []))
    | .looking target (peerId :: unseen) unconnected =>
      next (some (.looking target unseen
        (if state.connected target peerId then unconnected else unconnected ++ [peerId])))
    | .looking target [] (peerId :: unconnected) =>
      (next (some (.looking target [] unconnected))).closePeer target peerId
    | .looking _ [] [] => next none

/-- The handler of an entry ends, with the events it has not received. -/
def exitHandler (state : ForeignState ConnId) (entry : Nat) : Option (ForeignState ConnId) :=
  if (state.entries entry).handler ≠ .running ∨ (state.entries entry).clearing.isSome then none
  else
    some ((state.removeNetworkIfCurrent (state.entries entry).network.networkName entry).updateEntry
      entry fun entry => { entry with handler := .exited, events := [] })

/-- The steps of the calls, the connections and the handlers. -/
inductive ForeignAction (ConnId : Type) where
  | beginCall (connId : ConnId) (allowed : Bool)
  | getOrInsertEntry (connId : ConnId)
  | prepared (connId : ConnId)
  | ensureHandler (connId : ConnId)
  | subscribe (connId : ConnId) (subscribed : Bool)
  | acquireLock (connId : ConnId) (trusted : Bool)
  | lookUp (connId : ConnId) (tooMany : Bool)
  | lookUpAgain (connId : ConnId)
  | enterConn (connId : ConnId) (added : Bool)
  | addNewPeer (connId : ConnId)
  | cancel (connId : ConnId)
  | giveUp (connId : ConnId)
  | closeConn (peer : Nat) (connId : ConnId)
  | closePeer (entry : Nat) (peerId : PeerId)
  | issueEvent (entry : Nat) (event : PeerContextEvent)
  | handleEvent (entry : Nat)
  | clearNext (entry : Nat)
  | exitHandler (entry : Nat)

def step (library : SecretLibrary) (conns : ConnId → ForeignConn) (state : ForeignState ConnId)
    (action : ForeignAction ConnId) : Option (ForeignState ConnId) :=
  match action with
  | .beginCall connId allowed => beginCall conns state connId allowed
  | .getOrInsertEntry connId => getOrInsertEntry conns state connId
  | .prepared connId => prepared state connId
  | .ensureHandler connId => ensureHandler state connId
  | .subscribe connId subscribed => subscribe state connId subscribed
  | .acquireLock connId trusted => acquireLock state connId trusted
  | .lookUp connId tooMany => lookUp library conns state connId tooMany
  | .lookUpAgain connId => lookUpAgain conns state connId
  | .enterConn connId added => enterConn state connId added
  | .addNewPeer connId => addNewPeer conns state connId
  | .cancel connId => cancel state connId
  | .giveUp connId => giveUp conns state connId
  | .closeConn peer connId => state.closeConn peer connId
  | .closePeer entry peerId => some (state.closePeer entry peerId)
  | .issueEvent entry event => state.issueEvent entry event
  | .handleEvent entry => state.handleEvent entry
  | .clearNext entry => state.clearNext entry
  | .exitHandler entry => state.exitHandler entry

end ForeignState

/-- Any number of connections to any networks, added, cancelled and closed in any order. -/
def foreignSystem {ConnId : Type} [DecidableEq ConnId] (library : SecretLibrary)
    (conns : ConnId → ForeignConn) :
    System (ForeignState ConnId) (ForeignState.ForeignAction ConnId) :=
  .ofStep (· = .start) (ForeignState.step library conns)

end EasyTier.Peers
