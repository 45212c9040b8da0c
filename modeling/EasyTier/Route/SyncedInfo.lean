import Mathlib.Data.List.Dedup
import Mathlib.Data.List.Sort
import Mathlib.Logic.Relation
import EasyTier.Data.BitBuffer
import EasyTier.Data.VersionedMap

/-! # The synced route database

Every peer keeps what it knows of the others: their infos, their connections and the foreign
networks they serve, each with a version. Updates from other peers are taken if they are newer;
peers that are only mentioned get an empty entry of version 0.
-/

namespace EasyTier.Route

open Data

/-- A 32-bit peer id. -/
abbrev PeerId := Nat

/-- The fields of a peer's info that routing reads; `details` are those it only carries along. -/
structure RoutePeerInfo where
  peerId : PeerId
  peerRouteId : Nat
  version : Nat
  avoidRelayData : Bool
  details : Bytes
  lastUpdate : Nat
  deriving DecidableEq

/-- `connected_peers` is an ordered set, kept as the sorted list of its members. -/
structure RouteConnInfo where
  connectedPeers : List PeerId
  version : Nat
  lastUpdate : Nat
  deriving DecidableEq

structure ForeignNetworkRouteInfoKey where
  peerId : PeerId
  networkName : String
  deriving DecidableEq

structure ForeignNetworkRouteInfoEntry where
  foreignPeerIds : List PeerId
  version : Nat
  networkSecretDigest : Bytes
  myPeerIdForThisNetwork : PeerId
  lastUpdate : Nat
  deriving DecidableEq

/-- Collect peer ids into an ordered set. -/
def collectPeers (peerIds : List PeerId) : List PeerId := peerIds.dedup.insertionSort (· ≤ ·)

structure PeerIdVersion where
  peerId : PeerId
  version : Nat
  deriving DecidableEq

/-- The connections of all peers as a square of bits. -/
structure RouteConnBitmap where
  peerIds : List PeerIdVersion
  bitmap : Bytes
  deriving DecidableEq

structure PeerConnInfo where
  peerId : Option PeerIdVersion
  connectedPeerIds : List PeerId
  deriving DecidableEq

inductive ConnInfo where
  | connBitmap (bitmap : RouteConnBitmap)
  | connPeerList (infos : List PeerConnInfo)
  deriving DecidableEq

structure ForeignNetworkInfo where
  key : Option ForeignNetworkRouteInfoKey
  value : Option ForeignNetworkRouteInfoEntry
  deriving DecidableEq

/-- How an update can end early: an error, or a panic for the node's own id or an index. -/
inductive RouteError where
  | duplicatePeerId
  | myPeerIdDuplicated
  | indexOutOfBounds
  deriving DecidableEq

/-- The maps in insertion order, the newest first. -/
structure SyncedRouteInfo where
  peerInfos : AList fun _ : PeerId => RoutePeerInfo
  rawPeerInfos : AList fun _ : PeerId => Bytes
  connMap : AList fun _ : PeerId => RouteConnInfo
  foreignNetwork : AList fun _ : ForeignNetworkRouteInfoKey => ForeignNetworkRouteInfoEntry
  version : Nat
  deriving DecidableEq

namespace RouteConnBitmap

/-- `get_bit`, which panics past the end. -/
def getBit (bitmap : RouteConnBitmap) (index : Nat) : Except RouteError Bool :=
  match bitmap.bitmap[index / 8]? with
  | none => .error .indexOutOfBounds
  | some byte => .ok (byte.getLsbD (index % 8))

/-- The peers from a position of the row on whose bits are set. -/
def connectedFrom (bitmap : RouteConnBitmap) (row : Nat) :
    Nat → List PeerIdVersion → Except RouteError (List PeerId)
  | _, [] => .ok []
  | index, column :: columns =>
    match bitmap.getBit (row * bitmap.peerIds.length + index) with
    | .error error => .error error
    | .ok isSet =>
      (bitmap.connectedFrom row (index + 1) columns).map fun rest =>
        if isSet then column.peerId :: rest else rest

/-- `get_connected_peers`. -/
def getConnectedPeers (bitmap : RouteConnBitmap) (row : Nat) : Except RouteError (List PeerId) :=
  (bitmap.connectedFrom row 0 bitmap.peerIds).map collectPeers

end RouteConnBitmap

/-- The info of a peer nobody described yet. -/
def RoutePeerInfo.empty (details : Bytes) (now : Nat) : RoutePeerInfo where
  peerId := 0
  peerRouteId := 0
  version := 0
  avoidRelayData := false
  details := details
  lastUpdate := now

def RouteConnInfo.empty (now : Nat) : RouteConnInfo where
  connectedPeers := []
  version := 0
  lastUpdate := now

variable (info : SyncedRouteInfo)

namespace SyncedRouteInfo

def empty : SyncedRouteInfo :=
  { peerInfos := ∅, rawPeerInfos := ∅, connMap := ∅, foreignNetwork := ∅, version := 0 }

def incVersion (changed : Bool) : SyncedRouteInfo :=
  if changed then { info with version := info.version + 1 } else info

/-- The loop body of `fill_empty_peer_info`; the flag tells whether anything was filled. -/
def fillOne (details : Bytes) (now : Nat) (state : SyncedRouteInfo × Bool) (peerId : PeerId) :
    SyncedRouteInfo × Bool :=
  let (info, changed) := state
  let (info, changed) :=
    if peerId ∈ info.peerInfos then (info, changed)
    else ({ info with peerInfos := info.peerInfos.insert peerId (.empty details now) }, true)
  if peerId ∈ info.connMap then (info, changed)
  else ({ info with connMap := info.connMap.insert peerId (.empty now) }, true)

/-- `fill_empty_peer_info`; `details` come from the node's own version. -/
def fillEmptyPeerInfo (details : Bytes) (peerIds : List PeerId)
    (now : Nat) : SyncedRouteInfo :=
  let (info, changed) := peerIds.foldl (fillOne details now) (info, false)
  info.incVersion changed

def getPeerInfoVersionWithDefault (peerId : PeerId) : Nat :=
  ((info.peerInfos.lookup peerId).map (·.version)).getD 0

/-- `check_duplicate_peer_id`. -/
def checkDuplicatePeerId (myPeerId myPeerRouteId : Nat)
    (dstPeerId : PeerId) (dstPeerRouteId : Option Nat) (routeInfo : RoutePeerInfo) :
    Except RouteError Unit :=
  if routeInfo.peerId = myPeerId then
    if routeInfo.peerRouteId ≠ myPeerRouteId ∧
        info.getPeerInfoVersionWithDefault routeInfo.peerId < routeInfo.version then
      .error .myPeerIdDuplicated
    else .ok ()
  else if routeInfo.peerId = dstPeerId then
    match dstPeerRouteId with
    | none => .ok ()
    | some dstPeerRouteId =>
      if dstPeerRouteId ≠ routeInfo.peerRouteId ∧
          routeInfo.version < info.getPeerInfoVersionWithDefault routeInfo.peerId then
        .error .duplicatePeerId
      else .ok ()
  else .ok ()

/-- The loop of `update_peer_infos`; what it stored before an error stays. -/
def updatePeerInfosFrom (myPeerId myPeerRouteId : Nat) (dstPeerId : PeerId) (now : Nat) :
    SyncedRouteInfo → Bool → List RoutePeerInfo → List Bytes →
      Except RouteError Bool × SyncedRouteInfo
  | info, changed, [], _ => (.ok changed, info)
  | info, _, _ :: _, [] => (.error .indexOutOfBounds, info)
  | info, changed, routeInfo :: routeInfos, raw :: raws =>
    let dstPeerRouteId :=
      if routeInfo.peerId = dstPeerId then (info.peerInfos.lookup dstPeerId).map (·.peerRouteId)
      else none
    match info.checkDuplicatePeerId myPeerId myPeerRouteId dstPeerId dstPeerRouteId routeInfo with
    | .error error => (.error error, info)
    | .ok () =>
      let routeInfo := { routeInfo with lastUpdate := now }
      if (info.peerInfos.lookup routeInfo.peerId).all (·.version < routeInfo.version) then
        updatePeerInfosFrom myPeerId myPeerRouteId dstPeerId now
          { info with
            rawPeerInfos := info.rawPeerInfos.insert routeInfo.peerId raw
            peerInfos := info.peerInfos.insert routeInfo.peerId routeInfo }
          true routeInfos raws
      else
        updatePeerInfosFrom myPeerId myPeerRouteId dstPeerId now info changed routeInfos raws

/-- `update_peer_infos`. -/
def updatePeerInfos (myPeerId myPeerRouteId : Nat) (dstPeerId : PeerId)
    (peerInfos : List RoutePeerInfo) (rawPeerInfos : List Bytes) (now : Nat) :
    Except RouteError Unit × SyncedRouteInfo :=
  match updatePeerInfosFrom myPeerId myPeerRouteId dstPeerId now info false peerInfos
      rawPeerInfos with
  | (.error error, info) => (.error error, info)
  | (.ok changed, info) => (.ok (), info.incVersion changed)

/-- `update_conn_info_one_peer`. -/
def updateConnInfoOnePeer (peerIdVersion : PeerIdVersion)
    (connectedPeers : List PeerId) (now : Nat) : SyncedRouteInfo × Bool :=
  if (info.connMap.lookup peerIdVersion.peerId).all (·.version < peerIdVersion.version) then
    ({ info with
        connMap := info.connMap.insert peerIdVersion.peerId
          { connectedPeers := connectedPeers
            version := peerIdVersion.version
            lastUpdate := now } }, true)
  else (info, false)

/-- The loop of `update_conn_info_with_bitmap` from a row on. -/
def updateConnRowsFrom (bitmap : RouteConnBitmap) (details : Bytes) (now : Nat) :
    SyncedRouteInfo → Bool → Nat → List PeerIdVersion → Except RouteError Bool × SyncedRouteInfo
  | info, changed, _, [] => (.ok changed, info)
  | info, changed, row, peerIdVersion :: rows =>
    match bitmap.getConnectedPeers row with
    | .error error => (.error error, info)
    | .ok connectedPeers =>
      let (info, updated) :=
        (info.fillEmptyPeerInfo details connectedPeers now).updateConnInfoOnePeer
        peerIdVersion connectedPeers now
      updateConnRowsFrom bitmap details now info (changed || updated) (row + 1) rows

/-- `update_conn_info_with_bitmap`. -/
def updateConnInfoWithBitmap (details : Bytes) (bitmap : RouteConnBitmap)
    (now : Nat) : Except RouteError Unit × SyncedRouteInfo :=
  let filled := info.fillEmptyPeerInfo details (collectPeers (bitmap.peerIds.map (·.peerId))) now
  match updateConnRowsFrom bitmap details now filled false 0 bitmap.peerIds with
  | (.error error, info) => (.error error, info)
  | (.ok changed, info) => (.ok (), info.incVersion changed)

/-- The loop body of `update_conn_info_with_list`. -/
def updateConnListOne (details : Bytes) (now : Nat) (state : SyncedRouteInfo × Bool)
    (peerConnInfo : PeerConnInfo) : SyncedRouteInfo × Bool :=
  match peerConnInfo.peerId with
  | none => state
  | some peerIdVersion =>
    let connectedPeers := collectPeers peerConnInfo.connectedPeerIds
    let (info, updated) := (state.1.fillEmptyPeerInfo details connectedPeers
      now).updateConnInfoOnePeer peerIdVersion connectedPeers now
    (info, state.2 || updated)

/-- `update_conn_info_with_list`. -/
def updateConnInfoWithList (details : Bytes) (infos : List PeerConnInfo)
    (now : Nat) : SyncedRouteInfo :=
  let (info, changed) := infos.foldl (updateConnListOne details now) (info, false)
  info.incVersion changed

/-- `update_conn_info`. -/
def updateConnInfo (details : Bytes) (connInfo : ConnInfo) (now : Nat) :
    Except RouteError Unit × SyncedRouteInfo :=
  match connInfo with
  | .connBitmap bitmap => info.updateConnInfoWithBitmap details bitmap now
  | .connPeerList infos => (.ok (), info.updateConnInfoWithList details infos now)

/-- The loop body of `update_foreign_network`; the map is not ordered. -/
def updateForeignOne (now : Nat) (state : SyncedRouteInfo × Bool) (item : ForeignNetworkInfo) :
    SyncedRouteInfo × Bool :=
  match item.key, item.value with
  | some key, some entry =>
    let entry := { entry with lastUpdate := now }
    if (state.1.foreignNetwork.lookup key).all (·.version < entry.version) then
      ({ state.1 with foreignNetwork := state.1.foreignNetwork.insert key entry }, true)
    else state
  | _, _ => state

/-- `update_foreign_network`. -/
def updateForeignNetwork (infos : List ForeignNetworkInfo) (now : Nat) :
    SyncedRouteInfo × Bool :=
  infos.foldl (updateForeignOne now) (info, false)

/-! ## Writes

The updates of the connections and of the infos are sequences of writes, also where they end with an
error: what each write keeps, they keep. -/

/-- A write of `update_conn_info` or of `fill_empty_peer_info`. -/
inductive ConnWrite (details : Bytes) (now : Nat) : SyncedRouteInfo → SyncedRouteInfo → Prop
  | incVersion (info : SyncedRouteInfo) (changed : Bool) :
      ConnWrite details now info (info.incVersion changed)
  | fill {info : SyncedRouteInfo} {peerId : PeerId} (absent : peerId ∉ info.peerInfos) :
      ConnWrite details now info
        { info with peerInfos := info.peerInfos.insert peerId (.empty details now) }
  | conn (info : SyncedRouteInfo) (peerId : PeerId) {entry : RouteConnInfo}
      (current : entry.lastUpdate = now) :
      ConnWrite details now info { info with connMap := info.connMap.insert peerId entry }

/-- A write of `update_peer_infos`, which is offered infos with their bytes. -/
inductive PeerWrite (now : Nat) (offered : List (RoutePeerInfo × Bytes)) :
    SyncedRouteInfo → SyncedRouteInfo → Prop
  | incVersion (info : SyncedRouteInfo) (changed : Bool) :
      PeerWrite now offered info (info.incVersion changed)
  | store {info : SyncedRouteInfo} {new : RoutePeerInfo} {raw : Bytes}
      (member : (new, raw) ∈ offered)
      (newer : (info.peerInfos.lookup new.peerId).all (·.version < new.version) = true) :
      PeerWrite now offered info
        { info with
          rawPeerInfos := info.rawPeerInfos.insert new.peerId raw
          peerInfos := info.peerInfos.insert new.peerId { new with lastUpdate := now } }

abbrev ConnWrites (details : Bytes) (now : Nat) := Relation.ReflTransGen (ConnWrite details now)

abbrev PeerWrites (now : Nat) (offered : List (RoutePeerInfo × Bytes)) :=
  Relation.ReflTransGen (PeerWrite now offered)

variable {details : Bytes} {now : Nat}

/-- One round of `fill_empty_peer_info`. -/
theorem connWrites_fillOne (state : SyncedRouteInfo × Bool) (peerId : PeerId) :
    ConnWrites details now state.1 (fillOne details now state peerId).1 := by
  have conn : ∀ info : SyncedRouteInfo, ConnWrites details now info
      { info with connMap := info.connMap.insert peerId (.empty now) } :=
    fun info => .single (.conn info peerId rfl)
  unfold fillOne
  by_cases hasInfo : peerId ∈ state.1.peerInfos
  · by_cases hasConn : peerId ∈ state.1.connMap
    · simpa [hasInfo, hasConn] using Relation.ReflTransGen.refl
    · simpa [hasInfo, hasConn] using conn state.1
  · have filled : ConnWrites details now state.1 _ := .single (.fill hasInfo)
    by_cases hasConn : peerId ∈ state.1.connMap
    · simpa [hasInfo, hasConn] using filled
    · simpa [hasInfo, hasConn] using filled.trans (conn _)

/-- A loop makes the writes its rounds make. -/
theorem connWrites_foldl {Item : Type}
    {body : SyncedRouteInfo × Bool → Item → SyncedRouteInfo × Bool}
    (one : ∀ state item, ConnWrites details now state.1 (body state item).1) (items : List Item)
    (state : SyncedRouteInfo × Bool) :
    ConnWrites details now state.1 (items.foldl body state).1 := by
  induction items generalizing state with
  | nil => exact .refl
  | cons item items ih => exact (one state item).trans (ih (body state item))

/-- `fill_empty_peer_info` makes only such writes. -/
theorem connWrites_fillEmptyPeerInfo (peerIds : List PeerId) :
    ConnWrites details now info (info.fillEmptyPeerInfo details peerIds now) :=
  (connWrites_foldl connWrites_fillOne peerIds (info, false)).tail (.incVersion _ _)

/-- A row fills in the peers it names before it is stored. -/
theorem connWrites_row (peerIdVersion : PeerIdVersion)
    (connectedPeers : List PeerId) :
    ConnWrites details now info ((info.fillEmptyPeerInfo details connectedPeers
      now).updateConnInfoOnePeer peerIdVersion connectedPeers now).1 := by
  refine (connWrites_fillEmptyPeerInfo info connectedPeers).trans ?_
  unfold updateConnInfoOnePeer
  split
  · exact .single (.conn _ _ rfl)
  · exact .refl

/-- The rows of a bitmap, up to one that is refused. -/
theorem connWrites_updateConnRowsFrom (bitmap : RouteConnBitmap) (info : SyncedRouteInfo)
    (changed : Bool) (row : Nat) (rows : List PeerIdVersion) :
    ConnWrites details now info (updateConnRowsFrom bitmap details now info changed row
      rows).2 := by
  induction rows generalizing info changed row with
  | nil => exact .refl
  | cons peerIdVersion rows ih =>
    unfold updateConnRowsFrom
    split
    · exact .refl
    · exact (connWrites_row info peerIdVersion _).trans (ih _ _ _)

/-- `update_conn_info` makes only such writes, also where it fails. -/
theorem connWrites_updateConnInfo (details : Bytes) (connInfo : ConnInfo) :
    ConnWrites details now info (info.updateConnInfo details connInfo now).2 := by
  cases connInfo with
  | connBitmap bitmap =>
    have looped : ConnWrites details now info _ :=
      (connWrites_fillEmptyPeerInfo info (collectPeers (bitmap.peerIds.map (·.peerId)))).trans
        (connWrites_updateConnRowsFrom bitmap _ false 0 bitmap.peerIds)
    unfold updateConnInfo updateConnInfoWithBitmap
    dsimp only
    split
    · rename_i ended
      rw [ended] at looped
      exact looped
    · rename_i ended
      rw [ended] at looped
      exact looped.tail (.incVersion _ _)
  | connPeerList infos =>
    refine (connWrites_foldl (fun state peerConnInfo => ?_) infos (info, false)).tail
      (.incVersion _ _)
    unfold updateConnListOne
    split
    · exact .refl
    · exact connWrites_row state.1 _ _

/-- The rounds of `update_peer_infos`, up to an info that is refused. -/
theorem peerWrites_updatePeerInfosFrom {offered : List (RoutePeerInfo × Bytes)}
    (myPeerId myPeerRouteId : Nat) (dstPeerId : PeerId) (info : SyncedRouteInfo) (changed : Bool)
    (infos : List RoutePeerInfo) (raws : List Bytes) (subset : infos.zip raws ⊆ offered) :
    PeerWrites now offered info
      (updatePeerInfosFrom myPeerId myPeerRouteId dstPeerId now info changed infos raws).2 := by
  induction infos generalizing info changed raws with
  | nil => exact .refl
  | cons new infos ih =>
    cases raws with
    | nil => exact .refl
    | cons raw raws =>
      obtain ⟨member, others⟩ := List.cons_subset.mp subset
      unfold updatePeerInfosFrom
      dsimp only
      split
      · exact .refl
      · split
        · rename_i newer
          exact .head (.store member newer) (ih _ _ raws others)
        · exact ih info changed raws others

/-- `update_peer_infos` makes only such writes, also where it fails. -/
theorem peerWrites_updatePeerInfos (myPeerId myPeerRouteId : Nat)
    (dstPeerId : PeerId) (infos : List RoutePeerInfo) (raws : List Bytes) (now : Nat) :
    PeerWrites now (infos.zip raws) info
      (info.updatePeerInfos myPeerId myPeerRouteId dstPeerId infos raws now).2 := by
  have looped : PeerWrites now (infos.zip raws) info _ := peerWrites_updatePeerInfosFrom myPeerId
    myPeerRouteId dstPeerId info false infos raws (List.Subset.refl _)
  unfold updatePeerInfos
  split
  · rename_i ended
    rw [ended] at looped
    exact looped
  · rename_i ended
    rw [ended] at looped
    exact looped.tail (.incVersion _ _)

end SyncedRouteInfo

end EasyTier.Route
