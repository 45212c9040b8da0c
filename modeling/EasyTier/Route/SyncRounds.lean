import EasyTier.Route.SyncSession
import EasyTier.Semantics.System

/-! # Rounds of the incremental sync

One peer, its route database and its session with one destination. Between the rounds the database,
the topology and the cached connection bitmap change on their own; a request is built in one step
and its response taken in a later one; the destination may answer anything, under any session id.
-/

namespace EasyTier.Route

open Data Semantics

/-! ## The cached connection bitmap -/

variable (connMap : AList fun _ : PeerId => RouteConnInfo)

namespace RouteConnBitmap

/-- The rows of the bitmap with their versions: the reachable peers, and with version 0 the peers
they are connected to. -/
def rowVersions (reachable : PeerId → Bool) :
    List (PeerId × Nat) :=
  connMap.entries.flatMap fun item =>
    if reachable item.1 then
      (item.1, item.2.version) :: item.2.connectedPeers.map fun peerId => (peerId, 0)
    else []

/-- `all_peer_ids`: every peer once, with the largest version. -/
def allPeerIds (reachable : PeerId → Bool) :
    List PeerIdVersion :=
  let versions := rowVersions connMap reachable
  (collectPeers (versions.map (·.1))).map fun peerId =>
    { peerId := peerId
      version := ((versions.filter (·.1 = peerId)).map (·.2)).foldl max 0 }

/-- The bit at an index of the square. -/
def connBit (rows : List PeerIdVersion)
    (index : Nat) : Bool :=
  match rows[index / rows.length]?, rows[index % rows.length]? with
  | some row, some column =>
    (connMap.lookup row.peerId).any fun info => column.peerId ∈ info.connectedPeers
  | _, _ => false

/-- The bitmap of `update_route_table_and_cached_local_conn_bitmap`. -/
def ofConnMap (reachable : PeerId → Bool) :
    RouteConnBitmap :=
  let rows := allPeerIds connMap reachable
  { peerIds := rows
    bitmap := (List.range ((rows.length * rows.length + 7) / 8)).map fun byte =>
      (List.range 8).foldl (fun bits bit =>
        if connBit connMap rows (8 * byte + bit) then bits ||| (1#8 <<< bit) else bits) 0#8 }

/-- `estimate_conn_bitmap_size`; a `PeerIdVersion` takes 8 bytes. -/
def estimatedSize (bitmap : RouteConnBitmap) : Nat :=
  bitmap.bitmap.length + bitmap.peerIds.length * 8

end RouteConnBitmap

/-! ## The state -/

/-- A request whose response is awaited, with what the sender keeps for committing it. -/
structure SyncRequest where
  snapshot : SyncRequestSnapshot
  expectedDstSessionId : Nat
  nextLastSyncSuccTimestamp : Nat
  peerInfos : Option (List RoutePeerInfo)
  connInfo : Option ConnInfo
  foreignNetwork : Option (List ForeignNetworkInfo)
  deriving DecidableEq

def SyncRequest.peerVersions (request : SyncRequest) : List (PeerId × Nat) :=
  request.peerInfos.elim [] infoVersions

def SyncRequest.connVersions (request : SyncRequest) : List (PeerId × Nat) :=
  request.connInfo.elim [] ConnInfo.versions

inductive SyncRouteInfoError where
  | duplicatePeerId
  | stopped
  | other
  deriving DecidableEq

structure SyncRouteInfoResponse where
  isInitiator : Bool
  sessionId : Nat
  error : Option SyncRouteInfoError
  deriving DecidableEq

/-- History, not kept by the code: the versions acknowledged by and received from the destination
under its current session id. -/
structure Ledger where
  acknowledged : List (PeerId × Nat)
  received : List (PeerId × Nat)
  deriving DecidableEq

def Ledger.known (ledger : Ledger) : List (PeerId × Nat) := ledger.acknowledged ++ ledger.received

theorem Ledger.known_subset_receive (ledger : Ledger) (versions : List (PeerId × Nat)) :
    ledger.known ⊆ known { ledger with received := versions ++ ledger.received } := by
  simp [known]

theorem Ledger.subset_known_receive (ledger : Ledger) (versions : List (PeerId × Nat)) :
    versions ⊆ known { ledger with received := versions ++ ledger.received } := by
  simp [known]

/-- What does not change: the own ids, the destination, the default details of unknown peers, and
how `support_conn_list_sync` (or the switch that forces it) is read off a peer's info. -/
structure SyncConfig where
  myPeerId : PeerId
  myPeerRouteId : Nat
  dstPeerId : PeerId
  defaultDetails : Bytes
  supportsConnList : Option RoutePeerInfo → Bool

/-- One side of a session, with its requests on their way. -/
structure SyncState where
  now : Nat
  synced : SyncedRouteInfo
  reachable : List PeerId
  cachedLocalConnMap : RouteConnBitmap
  cachedLocalConnMapVersion : Nat
  session : SyncRouteSession
  requests : List SyncRequest
  peerLedger : Ledger
  connLedger : Ledger
  deriving DecidableEq

variable (config : SyncConfig) (state : SyncState)

namespace SyncState

/-- A node that has just started, with a new session. -/
def initial (mySessionId : Nat) : SyncState where
  now := 0
  synced := .empty
  reachable := []
  cachedLocalConnMap := { peerIds := [], bitmap := [] }
  cachedLocalConnMapVersion := 0
  session := .new mySessionId
  requests := []
  peerLedger := ⟨[], []⟩
  connLedger := ⟨[], []⟩

def topologyPeerReachable (peerId : PeerId) : Bool := peerId ∈ state.reachable

/-! ## Building a request -/

/-- `build_route_info`: the infos to send and the unreachable peers that stay listed. -/
def buildRouteInfo :
    Option (List RoutePeerInfo) × AList fun _ : PeerId => Nat :=
  let (infos, unreachable) := Incremental.build peerStamps config.dstPeerId
    state.topologyPeerReachable state.session.lastSyncSuccTimestamp
    state.session.dstSavedPeerInfoVersions state.session.unreachablePeersForPeerInfo
    state.synced.peerInfos
  (if infos.isEmpty then none else some (infos.map (·.2)), unreachable)

/-- `build_conn_peer_list`. -/
def buildConnPeerList :
    Option (List PeerConnInfo) × AList fun _ : PeerId => Nat :=
  let (infos, unreachable) := Incremental.build connStamps config.dstPeerId
    state.topologyPeerReachable state.session.lastSyncSuccTimestamp
    state.session.dstSavedConnInfoVersion state.session.unreachablePeersForConnInfo
    state.synced.connMap
  let peerConnInfos := infos.map fun item =>
    { peerId := some { peerId := item.1, version := item.2.version }
      connectedPeerIds := item.2.connectedPeers : PeerConnInfo }
  (if infos.isEmpty then none else some peerConnInfos, unreachable)

/-- The estimated size of a list: 8 bytes for an id with its version and 4 for a connected peer. -/
def connListEstimatedSize (infos : List PeerConnInfo) : Nat :=
  (infos.map fun info => 8 + info.connectedPeerIds.length * 4).sum

/-- Whether `build_conn_info` sends the list it built rather than the cached bitmap. -/
def sendsList (infos : List PeerConnInfo) : Bool :=
  connListEstimatedSize infos < state.cachedLocalConnMap.estimatedSize ∧
    config.supportsConnList (state.synced.peerInfos.lookup config.dstPeerId)

/-- `build_conn_info`. -/
def buildConnInfo :
    Option ConnInfo × AList fun _ : PeerId => Nat :=
  let (peerList, unreachable) := state.buildConnPeerList config
  (peerList.map fun infos =>
    if state.sendsList config infos then .connPeerList infos else .connBitmap
      state.cachedLocalConnMap,
    unreachable)

/-- `build_foreign_network_info`. -/
def buildForeignNetworkInfo :
    Option (List ForeignNetworkInfo) :=
  let infos := (state.synced.foreignNetwork.entries.filter fun item =>
    !state.session.checkSavedForeignNetworkVersionUpdateToDate config.dstPeerId item.1
      item.2.version).map fun item =>
        { key := some item.1, value := some item.2 : ForeignNetworkInfo }
  if infos.isEmpty then none else some infos

/-- The first half of `sync_route_with_peer`: build a request and send it, unless there is nothing
to tell. -/
def beginSync (syncAsInitiator : Bool) : SyncState :=
  let (peerInfos, unreachablePeers) := state.buildRouteInfo config
  let (connInfo, unreachableConns) := state.buildConnInfo config
  let foreignNetwork := state.buildForeignNetworkInfo config
  let session := { state.session with
    unreachablePeersForPeerInfo := unreachablePeers
    unreachablePeersForConnInfo := unreachableConns }
  if peerInfos.isNone ∧ connInfo.isNone ∧ foreignNetwork.isNone ∧
      !session.needSyncInitiatorInfo ∧ !(syncAsInitiator && session.weAreInitiator) then
    { state with session := session }
  else
    { state with
      session := { session with needSyncInitiatorInfo := false }
      requests := {
        snapshot := session.requestSnapshot
        expectedDstSessionId := session.dstSessionId
        nextLastSyncSuccTimestamp := state.now
        peerInfos := peerInfos
        connInfo := connInfo
        foreignNetwork := foreignNetwork } :: state.requests }

/-! ## Taking a response -/

/-- `update_remote_state_locked`; under a new session id nothing is known to be acknowledged. -/
def updateRemoteState (sessionId : Nat) (isInitiator : Bool) : SyncState :=
  let changed := sessionId ≠ state.session.dstSessionId
  { state with
    session := state.session.updateRemoteState sessionId isInitiator
    peerLedger := if changed then ⟨[], []⟩ else state.peerLedger
    connLedger := if changed then ⟨[], []⟩ else state.connLedger }

/-- Take the versions of an answered request as saved at the destination. -/
def saveVersions (request : SyncRequest) : SyncState :=
  let session := request.peerInfos.elim state.session fun infos =>
    state.session.updateDstSavedPeerInfoVersion infos config.dstPeerId
  let session := request.connInfo.elim session fun connInfo =>
    session.updateDstSavedConnInfoVersion connInfo config.dstPeerId
  -- the own request has all its keys and values
  let session := request.foreignNetwork.elim session fun infos =>
    (session.updateDstSavedForeignNetworkVersion infos config.dstPeerId).2
  { state with
    session := session.updateLastSyncSuccTimestamp request.nextLastSyncSuccTimestamp
    peerLedger := { state.peerLedger with
      acknowledged := request.peerVersions ++ state.peerLedger.acknowledged }
    connLedger := { state.connLedger with
      acknowledged := request.connVersions ++ state.connLedger.acknowledged } }

def requestInitiatorSync : SyncState :=
  { state with session := { state.session with needSyncInitiatorInfo := true } }

/-- The second half of `sync_route_with_peer`, for a response; a panic over a duplicate peer id ends
the task and changes nothing here. -/
def commitResponse (request : SyncRequest)
    (response : SyncRouteInfoResponse) : SyncState :=
  if !state.session.requestIsCurrent request.snapshot then
    state
  else
    match response.error with
    | some .stopped =>
      if !request.snapshot.isInitiator then
        { state with
          session := state.session.clearDstInitiatorIfSessionUnchanged
            request.expectedDstSessionId }
      else state.requestInitiatorSync
    | some .duplicatePeerId => state
    | some .other => state.requestInitiatorSync
    | none =>
      (state.updateRemoteState response.sessionId response.isInitiator).saveVersions config request

/-- The second half of `sync_route_with_peer`, for a failed call. -/
def commitFailure (request : SyncRequest) : SyncState :=
  if !state.session.requestIsCurrent request.snapshot then state else state.requestInitiatorSync

/-! ## Requests of the destination -/

/-- The part of `do_sync_route_info` that takes peer infos; after an error the rest is not
reached. -/
def receivePeerInfos (infos : List RoutePeerInfo)
    (raws : List Bytes) : Except HandlingError Unit × SyncState :=
  match state.synced.updatePeerInfos config.myPeerId config.myPeerRouteId config.dstPeerId infos
      raws state.now with
  | (.error error, synced) => (.error (.route error), { state with synced := synced })
  | (.ok (), synced) =>
    (.ok (), { state with
      synced := synced
      session := state.session.updateDstSavedPeerInfoVersion infos config.dstPeerId
      peerLedger := { state.peerLedger with
        received := infoVersions infos ++ state.peerLedger.received } })

/-- The part that takes connection info. -/
def receiveConnInfo (connInfo : ConnInfo) :
    Except HandlingError Unit × SyncState :=
  match state.synced.updateConnInfo config.defaultDetails connInfo state.now with
  | (.error error, synced) => (.error (.route error), { state with synced := synced })
  | (.ok (), synced) =>
    (.ok (), { state with
      synced := synced
      session := state.session.updateDstSavedConnInfoVersion connInfo config.dstPeerId
      connLedger := { state.connLedger with
        received := connInfo.versions ++ state.connLedger.received } })

/-- The part that takes foreign networks. -/
def receiveForeignNetwork
    (infos : List ForeignNetworkInfo) : Except HandlingError Unit × SyncState :=
  let synced := (state.synced.updateForeignNetwork infos state.now).1
  let (result, session) := state.session.updateDstSavedForeignNetworkVersion infos config.dstPeerId
  (result, { state with synced := synced, session := session })

/-- Go on with the next part of a request unless the last one ended early. -/
def andThen {Part : Type} (outcome : Except HandlingError Unit × SyncState) (part : Option Part)
    (next : SyncState → Part → Except HandlingError Unit × SyncState) :
    Except HandlingError Unit × SyncState :=
  match outcome.1, part with
  | .ok (), some part => next outcome.2 part
  | _, _ => outcome

/-- `do_sync_route_info` for an admitted request: what is left of the peer infos and the connection
info once the rules for credential peers are applied, and the foreign networks. The rebuilds at its
end are steps of their own. -/
def receiveSync
    (peerInfos : Option (List RoutePeerInfo × List Bytes)) (connInfo : Option ConnInfo)
    (foreignNetwork : Option (List ForeignNetworkInfo)) : Except HandlingError Unit × SyncState :=
  andThen
    (andThen
      (andThen (.ok (), state) peerInfos fun state infos =>
        state.receivePeerInfos config infos.1 infos.2)
      connInfo (receiveConnInfo config))
    foreignNetwork (receiveForeignNetwork config)

end SyncState

/-! ## Changes of the database

The calls that change the database take their locks entry by entry, so each entry is a step of its
own, and so is the count of the database's version at the end of a call.
-/

inductive DatabaseChange where
  /-- `update_peer_infos` for a sync of any neighbour. -/
  | peerInfo (info : RoutePeerInfo) (raw : Bytes)
  /-- `update_conn_info_one_peer`. -/
  | connInfo (peerIdVersion : PeerIdVersion) (connectedPeers : List PeerId)
  | fillEmptyPeerInfo (peerId : PeerId)
  | fillEmptyConnInfo (peerId : PeerId)
  /-- `update_my_peer_info` with the content the own info has by now. -/
  | myPeerInfo (info : RoutePeerInfo)
  | myConnInfo (connectedPeers : List PeerId)
  | removePeers (peerIds : List PeerId)
  | foreignNetwork (infos : List ForeignNetworkInfo)
  | incVersion
  deriving DecidableEq

/-- Erase keys one after the other. -/
def eraseAll {Value : Type} (map : AList fun _ : PeerId => Value) (peerIds : List PeerId) :
    AList fun _ : PeerId => Value :=
  peerIds.foldl (fun map peerId => map.erase peerId) map

namespace SyncedRouteInfo

variable (info : SyncedRouteInfo)

/-- `remove_peers` for some peers. -/
def removePeers (peerIds : List PeerId) : SyncedRouteInfo where
  peerInfos := eraseAll info.peerInfos peerIds
  rawPeerInfos := eraseAll info.rawPeerInfos peerIds
  connMap := eraseAll info.connMap peerIds
  foreignNetwork := retain (fun key _ => key.peerId ∉ peerIds) info.foreignNetwork
  version := info.version + 1

/-- The insertion of `update_my_peer_info`; the raw bytes are left as they are. -/
def insertMyPeerInfo (myPeerId : PeerId) (new : RoutePeerInfo) (now : Nat) : SyncedRouteInfo :=
  { info with
    peerInfos := info.peerInfos.insert myPeerId { new with
      peerId := myPeerId
      version := info.getPeerInfoVersionWithDefault myPeerId + 1
      lastUpdate := now } }

/-- The insertion of `update_my_conn_info`. -/
def updateMyConnInfo (myPeerId : PeerId) (connectedPeers : List PeerId)
    (now : Nat) : SyncedRouteInfo :=
  let old := info.connMap.lookup myPeerId
  if old.all (·.connectedPeers ≠ connectedPeers) then
    { info with
      connMap := info.connMap.insert myPeerId
        { connectedPeers := connectedPeers
          version := (old.map (·.version)).getD 0 + 1
          lastUpdate := now } }
  else info

/-- One change of the database. -/
def change (now : Nat) : DatabaseChange → SyncedRouteInfo
  | .peerInfo new raw =>
    if (info.peerInfos.lookup new.peerId).all (·.version < new.version) then
      { info with
        rawPeerInfos := info.rawPeerInfos.insert new.peerId raw
        peerInfos := info.peerInfos.insert new.peerId { new with lastUpdate := now } }
    else info
  | .connInfo peerIdVersion connectedPeers =>
    (info.updateConnInfoOnePeer peerIdVersion connectedPeers now).1
  | .fillEmptyPeerInfo peerId =>
    if peerId ∈ info.peerInfos then info
    else { info with peerInfos := info.peerInfos.insert peerId (.empty config.defaultDetails now) }
  | .fillEmptyConnInfo peerId =>
    if peerId ∈ info.connMap then info
    else { info with connMap := info.connMap.insert peerId (.empty now) }
  | .myPeerInfo new => info.insertMyPeerInfo config.myPeerId new now
  | .myConnInfo connectedPeers => info.updateMyConnInfo config.myPeerId connectedPeers now
  | .removePeers peerIds => info.removePeers peerIds
  | .foreignNetwork infos => (info.updateForeignNetwork infos now).1
  | .incVersion => info.incVersion true

end SyncedRouteInfo

/-! ## Steps -/

/-- The steps of one side. -/
inductive SyncEvent where
  /-- The clock moves on. -/
  | tick (time : Nat)
  | change (change : DatabaseChange)
  /-- The route table is computed anew. -/
  | updateTopology (reachable : List PeerId)
  /-- The cached bitmap is computed anew, and stored if the database has a larger version. -/
  | updateCachedLocalConnBitmap
  | beginSync (syncAsInitiator : Bool)
  /-- The answer to a request, counted from the last one sent. -/
  | response (index : Nat) (response : SyncRouteInfoResponse)
  | rpcFailed (index : Nat)
  | inbound (sessionId : Nat) (isInitiator : Bool)
      (peerInfos : Option (List RoutePeerInfo × List Bytes)) (connInfo : Option ConnInfo)
      (foreignNetwork : Option (List ForeignNetworkInfo))
  | updateInitiatorFlag (isInitiator : Bool)
  | clearStaleDstInitiator
  | cleanDstSavedMap (expiredPeers expiredConns : List PeerId)
      (expiredNetworks : List ForeignNetworkRouteInfoKey)
  deriving DecidableEq

namespace SyncState

/-- `update_route_table_and_cached_local_conn_bitmap` after the route table. -/
def updateCachedLocalConnBitmap : SyncState :=
  if state.cachedLocalConnMapVersion < state.synced.version then
    { state with
      cachedLocalConnMap := .ofConnMap state.synced.connMap state.topologyPeerReachable
      cachedLocalConnMapVersion := state.synced.version }
  else state

def inbound (sessionId : Nat) (isInitiator : Bool)
    (peerInfos : Option (List RoutePeerInfo × List Bytes)) (connInfo : Option ConnInfo)
    (foreignNetwork : Option (List ForeignNetworkInfo)) : SyncState :=
  match state.session.admitsInbound sessionId isInitiator with
  | none => state
  | some role =>
    ((state.updateRemoteState sessionId role).receiveSync config peerInfos connInfo
      foreignNetwork).2

/-- The step function; none if the event is not possible. -/
def step : SyncEvent → Option SyncState
  | .tick time => if state.now ≤ time then some { state with now := time } else none
  | .change change =>
    some { state with synced := state.synced.change config state.now change }
  | .updateTopology reachable => some { state with reachable := reachable }
  | .updateCachedLocalConnBitmap => some state.updateCachedLocalConnBitmap
  | .beginSync syncAsInitiator => some (state.beginSync config syncAsInitiator)
  | .response index response =>
    (state.requests[index]?).map fun request =>
      { state with requests := state.requests.eraseIdx index }.commitResponse config request
        response
  | .rpcFailed index =>
    (state.requests[index]?).map fun request =>
      { state with requests := state.requests.eraseIdx index }.commitFailure request
  | .inbound sessionId isInitiator peerInfos connInfo foreignNetwork =>
    some (state.inbound config sessionId isInitiator peerInfos connInfo foreignNetwork)
  | .updateInitiatorFlag isInitiator =>
    some { state with session := state.session.updateInitiatorFlag isInitiator }
  | .clearStaleDstInitiator =>
    some { state with session := state.session.clearStaleDstInitiator }
  | .cleanDstSavedMap expiredPeers expiredConns expiredNetworks =>
    some { state with
      session := state.session.cleanDstSavedMap expiredPeers expiredConns expiredNetworks }

end SyncState

/-- All runs of a node with one session, whatever random id it got. -/
def syncSystem : System SyncState SyncEvent :=
  .ofStep (fun state => ∃ mySessionId, state = .initial mySessionId) (SyncState.step config)

end EasyTier.Route
