import EasyTier.Data.Incremental
import EasyTier.Route.SyncedInfo

/-! # Sync sessions

What a peer remembers of one neighbour it exchanges route data with: the versions the neighbour has,
the peers it does not send for being unreachable, the time of the last sync that went through, and
the session ids and roles of both ends. A response is taken only while the state it was requested
in still stands.
-/

namespace EasyTier.Route

open Data

/-- What the sync reads off a peer info; the info names its peer itself. -/
def peerStamps : Incremental.Stamps PeerId RoutePeerInfo where
  subject := fun _ info => info.peerId
  version := RoutePeerInfo.version
  lastUpdate := RoutePeerInfo.lastUpdate

def connStamps : Incremental.Stamps PeerId RouteConnInfo where
  subject := fun peerId _ => peerId
  version := RouteConnInfo.version
  lastUpdate := RouteConnInfo.lastUpdate

/-- The session with one destination. The saved versions do not carry their touch times, so any of
them may expire at any time. -/
structure SyncRouteSession where
  dstSavedPeerInfoVersions : AList fun _ : PeerId => Nat
  dstSavedConnInfoVersion : AList fun _ : PeerId => Nat
  dstSavedForeignNetworkVersions : AList fun _ : ForeignNetworkRouteInfoKey => Nat
  unreachablePeersForPeerInfo : AList fun _ : PeerId => Nat
  unreachablePeersForConnInfo : AList fun _ : PeerId => Nat
  lastSyncSuccTimestamp : Option Nat
  mySessionId : Nat
  dstSessionId : Nat
  weAreInitiator : Bool
  dstIsInitiator : Bool
  stateRevision : Nat
  needSyncInitiatorInfo : Bool
  deriving DecidableEq

/-- How handling a request can end early: as an update of the database does, or by a panic that
unwraps an absent field. -/
inductive HandlingError where
  | route (error : RouteError)
  | unwrapNone
  deriving DecidableEq

structure SyncRequestSnapshot where
  mySessionId : Nat
  stateRevision : Nat
  isInitiator : Bool
  deriving DecidableEq

/-- The versions a connection info carries. -/
def ConnInfo.versions : ConnInfo → List (PeerId × Nat)
  | .connBitmap bitmap => bitmap.peerIds.map fun row => (row.peerId, row.version)
  | .connPeerList infos => infos.filterMap fun info =>
      info.peerId.map fun row => (row.peerId, row.version)

/-- The versions peer infos carry. -/
def infoVersions (infos : List RoutePeerInfo) : List (PeerId × Nat) :=
  infos.map fun info => (info.peerId, info.version)

variable (session : SyncRouteSession)

namespace SyncRouteSession

/-- `SyncRouteSession::new`; the session id is random. -/
def new (mySessionId : Nat) : SyncRouteSession where
  dstSavedPeerInfoVersions := ∅
  dstSavedConnInfoVersion := ∅
  dstSavedForeignNetworkVersions := ∅
  unreachablePeersForPeerInfo := ∅
  unreachablePeersForConnInfo := ∅
  lastSyncSuccTimestamp := none
  mySessionId := mySessionId
  dstSessionId := 0
  weAreInitiator := false
  dstIsInitiator := false
  stateRevision := 0
  needSyncInitiatorInfo := false

/-! ## What the destination has -/

def checkSavedForeignNetworkVersionUpdateToDate (dstPeerId : PeerId)
    (key : ForeignNetworkRouteInfoKey) (version : Nat) : Bool :=
  version = 0 ∨ key.peerId = dstPeerId ∨
    (session.dstSavedForeignNetworkVersions.lookup key).any (version ≤ ·)

def updateDstSavedPeerInfoVersion (infos : List RoutePeerInfo)
    (dstPeerId : PeerId) : SyncRouteSession :=
  { session with
    dstSavedPeerInfoVersions :=
      Incremental.record dstPeerId session.dstSavedPeerInfoVersions (infoVersions infos) }

/-- `update_dst_saved_conn_info_version`, for either form; rows without a peer id are skipped. -/
def updateDstSavedConnInfoVersion (connInfo : ConnInfo)
    (dstPeerId : PeerId) : SyncRouteSession :=
  { session with
    dstSavedConnInfoVersion :=
      Incremental.record dstPeerId session.dstSavedConnInfoVersion connInfo.versions }

/-- The loop of `update_dst_saved_foreign_network_version`, which unwraps the key and, for the
networks of other peers, the value; by then an entry of version 0 stands for a key that had none. -/
def saveForeignNetworks (dstPeerId : PeerId) :
    (AList fun _ : ForeignNetworkRouteInfoKey => Nat) → List ForeignNetworkInfo →
      Except HandlingError Unit × (AList fun _ : ForeignNetworkRouteInfoKey => Nat)
  | saved, [] => (.ok (), saved)
  | saved, item :: items =>
    match item.key with
    | none => (.error .unwrapNone, saved)
    | some key =>
      if key.peerId = dstPeerId then saveForeignNetworks dstPeerId saved items
      else
        let version := (saved.lookup key).getD 0
        match item.value with
        | none => (.error .unwrapNone, saved.insert key version)
        | some entry =>
          saveForeignNetworks dstPeerId (saved.insert key (max version entry.version)) items

/-- `update_dst_saved_foreign_network_version`. -/
def updateDstSavedForeignNetworkVersion
    (foreignNetwork : List ForeignNetworkInfo) (dstPeerId : PeerId) :
    Except HandlingError Unit × SyncRouteSession :=
  let (result, saved) :=
    saveForeignNetworks dstPeerId session.dstSavedForeignNetworkVersions foreignNetwork
  (result, { session with dstSavedForeignNetworkVersions := saved })

/-- `clean_dst_saved_map`, for entries that have expired. -/
def cleanDstSavedMap (expiredPeers expiredConns : List PeerId)
    (expiredNetworks : List ForeignNetworkRouteInfoKey) : SyncRouteSession :=
  { session with
    dstSavedPeerInfoVersions :=
      retain (fun peerId _ => peerId ∉ expiredPeers) session.dstSavedPeerInfoVersions
    dstSavedConnInfoVersion :=
      retain (fun peerId _ => peerId ∉ expiredConns) session.dstSavedConnInfoVersion
    dstSavedForeignNetworkVersions :=
      retain (fun key _ => key ∉ expiredNetworks) session.dstSavedForeignNetworkVersions }

/-! ## Session ids and roles -/

def updateInitiatorFlag (isInitiator : Bool) : SyncRouteSession :=
  { session with
    weAreInitiator := isInitiator
    stateRevision :=
      if session.weAreInitiator = isInitiator then session.stateRevision
      else session.stateRevision + 1
    needSyncInitiatorInfo := true }

/-- What a new session id of the destination makes void. -/
def forgetDst (sessionId : Nat) : SyncRouteSession :=
  { session with
    dstSessionId := sessionId
    dstSavedPeerInfoVersions := ∅
    dstSavedConnInfoVersion := ∅
    dstSavedForeignNetworkVersions := ∅
    unreachablePeersForPeerInfo := ∅
    unreachablePeersForConnInfo := ∅
    lastSyncSuccTimestamp := none }

/-- `update_remote_state_locked`. -/
def updateRemoteState (sessionId : Nat) (isInitiator : Bool) :
    SyncRouteSession :=
  let sessionIdChanged := sessionId ≠ session.dstSessionId
  let initiatorChanged := isInitiator ≠ session.dstIsInitiator
  let kept := if sessionIdChanged then session.forgetDst sessionId else session
  { kept with
    dstIsInitiator := isInitiator
    stateRevision :=
      if sessionIdChanged ∨ initiatorChanged then session.stateRevision + 1
      else session.stateRevision }

/-- The roles with which `admit_inbound_locked` calls `update_remote_state_locked`; none if the
request is refused. -/
def admitsInbound (sessionId : Nat) (isInitiator : Bool) : Option Bool :=
  if sessionId = session.dstSessionId then some isInitiator
  else if session.dstSessionId = 0 ∧ !isInitiator ∧ session.weAreInitiator then some false
  else if !isInitiator ∨ session.dstIsInitiator then none
  else some true

def requestSnapshot : SyncRequestSnapshot where
  mySessionId := session.mySessionId
  stateRevision := session.stateRevision
  isInitiator := session.weAreInitiator

def requestIsCurrent (snapshot : SyncRequestSnapshot) : Bool :=
  snapshot = session.requestSnapshot

/-- `clear_dst_initiator_if_session_unchanged_locked`. -/
def clearDstInitiatorIfSessionUnchanged (expectedDstSessionId : Nat) :
    SyncRouteSession :=
  if session.dstSessionId ≠ expectedDstSessionId then session
  else session.updateRemoteState expectedDstSessionId false

/-- `clear_stale_dst_initiator` after the liveness timeout. -/
def clearStaleDstInitiator : SyncRouteSession :=
  if !session.dstIsInitiator ∨ session.weAreInitiator then session
  else session.updateRemoteState session.dstSessionId false

def updateLastSyncSuccTimestamp (next : Nat) : SyncRouteSession :=
  if session.lastSyncSuccTimestamp.all (· < next) then
    { session with lastSyncSuccTimestamp := some next }
  else session

end SyncRouteSession

end EasyTier.Route
