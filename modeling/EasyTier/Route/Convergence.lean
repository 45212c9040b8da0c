import EasyTier.Route.SyncedInfo

/-! # Convergence of the route database

Every update offers entries to versioned maps and nothing else, placeholders included: a placeholder
is an entry of version 0. So what a database ends with depends on the updates it received, not on
their order, their repetition or the form of the connection infos.
-/

namespace EasyTier.Route

open Data Data.VersionedMap

/-- A call of one of the three update functions. -/
inductive RouteUpdate where
  | peerInfos (dstPeerId : PeerId) (peerInfos : List RoutePeerInfo) (rawPeerInfos : List Bytes)
  | connInfo (connInfo : ConnInfo)
  | foreignNetwork (infos : List ForeignNetworkInfo)
  deriving DecidableEq

/-- The node whose database it is; `details` are those of its placeholders. -/
structure RouteNode where
  myPeerId : PeerId
  myPeerRouteId : Nat
  details : Bytes

namespace RouteNode

/-- One call at a point in time. -/
def update (node : RouteNode) (info : SyncedRouteInfo) (update : RouteUpdate) (now : Nat) :
    Except RouteError Unit × SyncedRouteInfo :=
  match update with
  | .peerInfos dstPeerId peerInfos rawPeerInfos =>
    info.updatePeerInfos node.myPeerId node.myPeerRouteId dstPeerId peerInfos rawPeerInfos now
  | .connInfo connInfo => info.updateConnInfo node.details connInfo now
  | .foreignNetwork infos => (.ok (), (info.updateForeignNetwork infos now).1)

/-- Calls one after the other, as long as none fails. -/
def updateAll (node : RouteNode) :
    SyncedRouteInfo → List (RouteUpdate × Nat) → Except RouteError SyncedRouteInfo
  | info, [] => .ok info
  | info, (update, now) :: updates =>
    match node.update info update now with
    | (.error error, _) => .error error
    | (.ok (), info) => node.updateAll info updates

end RouteNode

/-! ## What an update offers -/

/-- The rows of a connection info: who they are about and who that peer is connected with. -/
def ConnInfo.rows : ConnInfo → List (PeerIdVersion × List PeerId)
  | .connBitmap bitmap => bitmap.peerIds.zipIdx.map fun (peerIdVersion, row) =>
      (peerIdVersion, (bitmap.getConnectedPeers row).toOption.getD [])
  | .connPeerList infos => infos.filterMap fun info =>
      info.peerId.map (·, collectPeers info.connectedPeerIds)

open ConnInfo

/-- The peers that get placeholders before the first row. -/
def ConnInfo.mentioned : ConnInfo → List PeerId
  | .connBitmap bitmap => collectPeers (bitmap.peerIds.map (·.peerId))
  | .connPeerList _ => []

/-- The infos an update offers for peers, without their time. -/
def RouteUpdate.peerItems (details : Bytes) : RouteUpdate → List (PeerId × RoutePeerInfo)
  | .peerInfos _ infos _ => infos.map fun info => (info.peerId, info)
  | .connInfo message => (message.mentioned ++ message.rows.flatMap (·.2)).map
      (·, .empty details 0)
  | .foreignNetwork _ => []

def RouteUpdate.connItems : RouteUpdate → List (PeerId × RouteConnInfo)
  | .peerInfos _ _ _ => []
  | .connInfo message => message.mentioned.map (·, .empty 0) ++
      message.rows.flatMap fun (peerIdVersion, connectedPeers) =>
        connectedPeers.map (·, .empty 0) ++
          [(peerIdVersion.peerId, ⟨connectedPeers, peerIdVersion.version, 0⟩)]
  | .foreignNetwork _ => []

def RouteUpdate.foreignItems :
    RouteUpdate → List (ForeignNetworkRouteInfoKey × ForeignNetworkRouteInfoEntry)
  | .peerInfos _ _ _ | .connInfo _ => []
  | .foreignNetwork infos => infos.filterMap fun item =>
      match item.key, item.value with
      | some key, some entry => some (key, entry)
      | _, _ => none

def RoutePeerInfo.stamp (now : Nat) (info : RoutePeerInfo) : RoutePeerInfo :=
  { info with lastUpdate := now }

open RoutePeerInfo

def RouteConnInfo.stamp (now : Nat) (info : RouteConnInfo) : RouteConnInfo :=
  { info with lastUpdate := now }

def ForeignNetworkRouteInfoEntry.stamp (now : Nat) (entry : ForeignNetworkRouteInfoEntry) :
    ForeignNetworkRouteInfoEntry :=
  { entry with lastUpdate := now }

theorem RoutePeerInfo.stamping : Stamping version (stamp 0) stamp where
  unstamped _ _ := rfl
  versions a b alike := show (a.stamp 0).version = (b.stamp 0).version from congrArg version alike

theorem RouteConnInfo.stamping : Stamping version (stamp 0) stamp where
  unstamped _ _ := rfl
  versions a b alike := show (a.stamp 0).version = (b.stamp 0).version from congrArg version alike

theorem ForeignNetworkRouteInfoEntry.stamping : Stamping version (stamp 0) stamp where
  unstamped _ _ := rfl
  versions a b alike := show (a.stamp 0).version = (b.stamp 0).version from congrArg version alike

/-- The database took the offered entries. -/
structure Takes (before after : SyncedRouteInfo) (peers : List (PeerId × RoutePeerInfo))
    (conns : List (PeerId × RouteConnInfo))
    (foreigns : List (ForeignNetworkRouteInfoKey × ForeignNetworkRouteInfoEntry)) : Prop where
  peerInfos : after.peerInfos = offers (·.version) before.peerInfos peers
  connMap : after.connMap = offers (·.version) before.connMap conns
  foreignNetwork : after.foreignNetwork = offers (·.version) before.foreignNetwork foreigns

theorem Takes.refl (info : SyncedRouteInfo) : Takes info info [] [] [] := ⟨rfl, rfl, rfl⟩

theorem Takes.trans {first second third : SyncedRouteInfo}
    {peers morePeers : List (PeerId × RoutePeerInfo)}
    {conns moreConns : List (PeerId × RouteConnInfo)}
    {foreigns moreForeigns : List (ForeignNetworkRouteInfoKey × ForeignNetworkRouteInfoEntry)}
    (before : Takes first second peers conns foreigns)
    (after : Takes second third morePeers moreConns moreForeigns) :
    Takes first third (peers ++ morePeers) (conns ++ moreConns) (foreigns ++ moreForeigns) where
  peerInfos := by rw [after.peerInfos, before.peerInfos, offers_append]
  connMap := by rw [after.connMap, before.connMap, offers_append]
  foreignNetwork := by rw [after.foreignNetwork, before.foreignNetwork, offers_append]

theorem takes_incVersion (info : SyncedRouteInfo) (changed : Bool) :
    Takes info (info.incVersion changed) [] [] [] := by
  unfold SyncedRouteInfo.incVersion
  split <;> exact ⟨rfl, rfl, rfl⟩

/-- A placeholder is taken only if the key is new. -/
theorem offer_placeholder {Key Entry : Type} [DecidableEq Key] (version : Entry → Nat)
    (map : AList fun _ : Key => Entry) (key : Key) (entry : Entry) (empty : version entry = 0) :
    offer version map key entry = if key ∈ map then map else map.insert key entry := by
  unfold offer
  by_cases present : key ∈ map
  · obtain ⟨stored, found⟩ := Option.isSome_iff_exists.mp (AList.lookup_isSome.mpr present)
    simp [present, found, empty]
  · simp [present, AList.lookup_eq_none.mpr present]

theorem takes_fillOne (details : Bytes) (now : Nat) (state : SyncedRouteInfo × Bool)
    (peerId : PeerId) :
    Takes state.1 (SyncedRouteInfo.fillOne details now state peerId).1
      [(peerId, .empty details now)] [(peerId, .empty now)] [] := by
  refine ⟨Eq.trans ?_ (offer_placeholder version _ _ _ rfl).symm,
    Eq.trans ?_ (offer_placeholder RouteConnInfo.version _ _ _ rfl).symm, ?_⟩
  all_goals
    unfold SyncedRouteInfo.fillOne
    dsimp only
    split <;> split <;> rfl

/-- `fill_empty_peer_info` offers placeholders. -/
theorem takes_fillEmptyPeerInfo (info : SyncedRouteInfo) (details : Bytes) (peerIds : List PeerId)
    (now : Nat) :
    Takes info (info.fillEmptyPeerInfo details peerIds now)
      (peerIds.map (·, .empty details now)) (peerIds.map (·, .empty now)) [] := by
  have filled : ∀ (state : SyncedRouteInfo × Bool),
      Takes state.1 (peerIds.foldl (SyncedRouteInfo.fillOne details now) state).1
        (peerIds.map (·, .empty details now)) (peerIds.map (·, .empty now)) [] := by
    induction peerIds with
    | nil => exact fun state => Takes.refl state.1
    | cons peerId peerIds ih =>
      exact fun state => (takes_fillOne details now state peerId).trans (ih _)
  unfold SyncedRouteInfo.fillEmptyPeerInfo
  simpa using (filled (info, false)).trans (takes_incVersion _ _)

theorem takes_updateConnInfoOnePeer (info : SyncedRouteInfo) (peerIdVersion : PeerIdVersion)
    (connectedPeers : List PeerId) (now : Nat) :
    Takes info (info.updateConnInfoOnePeer peerIdVersion connectedPeers now).1 []
      [(peerIdVersion.peerId, ⟨connectedPeers, peerIdVersion.version, now⟩)] [] := by
  unfold SyncedRouteInfo.updateConnInfoOnePeer
  split
  · rename_i larger
    exact ⟨rfl, (if_pos larger).symm, rfl⟩
  · rename_i notLarger
    exact ⟨rfl, (if_neg notLarger).symm, rfl⟩

/-- One row of a connection info offers placeholders for the peers it names, then itself. -/
theorem takes_row (info : SyncedRouteInfo) (details : Bytes) (peerIdVersion : PeerIdVersion)
    (connectedPeers : List PeerId) (now : Nat) :
    Takes info ((info.fillEmptyPeerInfo details connectedPeers now).updateConnInfoOnePeer
        peerIdVersion connectedPeers now).1
      (connectedPeers.map (·, .empty details now))
      (connectedPeers.map (·, .empty now) ++
        [(peerIdVersion.peerId, ⟨connectedPeers, peerIdVersion.version, now⟩)]) [] := by
  simpa using (takes_fillEmptyPeerInfo info details connectedPeers now).trans
    (takes_updateConnInfoOnePeer _ peerIdVersion connectedPeers now)

/-- The placeholders that rows offer for the peers they name. -/
def rowPeers (details : Bytes) (now : Nat) (rows : List (PeerIdVersion × List PeerId)) :
    List (PeerId × RoutePeerInfo) :=
  (rows.flatMap (·.2)).map (·, .empty details now)

def rowConns (now : Nat) (rows : List (PeerIdVersion × List PeerId)) :
    List (PeerId × RouteConnInfo) :=
  rows.flatMap fun (peerIdVersion, connectedPeers) =>
    connectedPeers.map (·, .empty now) ++
      [(peerIdVersion.peerId, ⟨connectedPeers, peerIdVersion.version, now⟩)]

variable {now : Nat} {info after : SyncedRouteInfo} {update : RouteUpdate}

theorem takes_updateConnRowsFrom {bitmap : RouteConnBitmap} {details : Bytes}
    {changed result : Bool} {row : Nat} {rows : List PeerIdVersion}
    (done : SyncedRouteInfo.updateConnRowsFrom bitmap details now info changed row rows =
      (.ok result, after)) :
    let read := (rows.zipIdx row).map fun (peerIdVersion, row) =>
      (peerIdVersion, (bitmap.getConnectedPeers row).toOption.getD [])
    Takes info after (rowPeers details now read) (rowConns now read) [] := by
  induction rows generalizing info changed row with
  | nil =>
    cases done
    exact Takes.refl _
  | cons peerIdVersion rows ih =>
    unfold SyncedRouteInfo.updateConnRowsFrom at done
    split at done
    · cases done
    rename_i connectedPeers connected
    have first := takes_row info details peerIdVersion connectedPeers now
    have rest := ih done
    simpa [rowPeers, rowConns, connected, Except.toOption] using first.trans rest

theorem takes_updateConnInfoWithList (info : SyncedRouteInfo) (details : Bytes)
    (infos : List PeerConnInfo) (now : Nat) :
    Takes info (info.updateConnInfoWithList details infos now)
      (rowPeers details now (connPeerList infos).rows)
      (rowConns now (connPeerList infos).rows) [] := by
  have looped : ∀ state : SyncedRouteInfo × Bool,
      Takes state.1 (infos.foldl (SyncedRouteInfo.updateConnListOne details now) state).1
        (rowPeers details now (connPeerList infos).rows)
        (rowConns now (connPeerList infos).rows) [] := by
    induction infos with
    | nil => exact fun state => Takes.refl state.1
    | cons peerConnInfo infos ih =>
      intro state
      cases named : peerConnInfo.peerId with
      | none => simpa [SyncedRouteInfo.updateConnListOne, named, rows] using ih state
      | some peerIdVersion =>
        have first := takes_row state.1 details peerIdVersion
          (collectPeers peerConnInfo.connectedPeerIds) now
        have rest := ih (SyncedRouteInfo.updateConnListOne details now state peerConnInfo)
        simp only [SyncedRouteInfo.updateConnListOne, named] at rest
        simpa [SyncedRouteInfo.updateConnListOne, named, rows, rowPeers, rowConns] using
          first.trans rest
  unfold SyncedRouteInfo.updateConnInfoWithList
  simpa using (looped (info, false)).trans (takes_incVersion _ _)

theorem takes_updatePeerInfosFrom {myPeerId myPeerRouteId : Nat} {dstPeerId : PeerId}
    {changed result : Bool} {infos : List RoutePeerInfo} {raws : List Bytes}
    (done : SyncedRouteInfo.updatePeerInfosFrom myPeerId myPeerRouteId dstPeerId now info changed
      infos raws = (.ok result, after)) :
    Takes info after (infos.map fun info => (info.peerId, info.stamp now)) [] [] := by
  induction infos generalizing info changed raws with
  | nil =>
    cases done
    exact Takes.refl _
  | cons routeInfo infos ih =>
    cases raws with
    | nil => cases done
    | cons raw raws =>
      unfold SyncedRouteInfo.updatePeerInfosFrom at done
      dsimp only at done
      split at done
      · cases done
      split at done
      · rename_i larger
        have first : Takes info
            { info with
              rawPeerInfos := info.rawPeerInfos.insert routeInfo.peerId raw
              peerInfos := info.peerInfos.insert routeInfo.peerId (routeInfo.stamp now) }
            [(routeInfo.peerId, routeInfo.stamp now)] [] [] :=
          ⟨(if_pos larger).symm, rfl, rfl⟩
        exact first.trans (ih done)
      · rename_i notLarger
        have first : Takes info info [(routeInfo.peerId, routeInfo.stamp now)] [] [] :=
          ⟨(if_neg notLarger).symm, rfl, rfl⟩
        exact first.trans (ih done)

theorem takes_updateForeignNetwork (info : SyncedRouteInfo) (infos : List ForeignNetworkInfo)
    (now : Nat) :
    Takes info (info.updateForeignNetwork infos now).1 [] []
      ((RouteUpdate.foreignNetwork infos).foreignItems.map (Prod.map id (·.stamp now))) := by
  have looped : ∀ state : SyncedRouteInfo × Bool,
      Takes state.1 (infos.foldl (SyncedRouteInfo.updateForeignOne now) state).1 [] []
        ((RouteUpdate.foreignNetwork infos).foreignItems.map (Prod.map id (·.stamp now))) := by
    induction infos with
    | nil => exact fun state => Takes.refl state.1
    | cons item infos ih =>
      intro state
      have rest := ih (SyncedRouteInfo.updateForeignOne now state item)
      cases named : item.key with
      | none => simpa [SyncedRouteInfo.updateForeignOne, RouteUpdate.foreignItems, named] using rest
      | some key =>
        cases given : item.value with
        | none =>
          simpa [SyncedRouteInfo.updateForeignOne, RouteUpdate.foreignItems, named,
            given] using rest
        | some entry =>
          have first : Takes state.1 (SyncedRouteInfo.updateForeignOne now state item).1 [] []
              [(key, entry.stamp now)] := by
            simp only [SyncedRouteInfo.updateForeignOne, named, given]
            split
            · rename_i larger
              exact ⟨rfl, rfl, (if_pos larger).symm⟩
            · rename_i notLarger
              exact ⟨rfl, rfl, (if_neg notLarger).symm⟩
          simpa [RouteUpdate.foreignItems, named, given] using first.trans rest
  exact looped (info, false)

/-- Every update offers its items, stamped with the time of the call. -/
theorem takes_update {node : RouteNode} (done : node.update info update now = (.ok (), after)) :
    Takes info after ((update.peerItems node.details).map (Prod.map id (·.stamp now)))
      (update.connItems.map (Prod.map id (·.stamp now)))
      (update.foreignItems.map (Prod.map id (·.stamp now))) := by
  cases update with
  | peerInfos dstPeerId infos raws =>
    simp only [RouteNode.update, SyncedRouteInfo.updatePeerInfos] at done
    split at done
    · cases done
    rename_i changed middle looped
    cases done
    have took := (takes_updatePeerInfosFrom looped).trans (takes_incVersion middle changed)
    simpa [RouteUpdate.peerItems, RouteUpdate.connItems, RouteUpdate.foreignItems,
      Function.comp_def] using took
  | connInfo message =>
    cases message with
    | connBitmap bitmap =>
      simp only [RouteNode.update, SyncedRouteInfo.updateConnInfo,
        SyncedRouteInfo.updateConnInfoWithBitmap] at done
      split at done
      · cases done
      rename_i changed middle looped
      cases done
      have took := ((takes_fillEmptyPeerInfo info node.details
        (collectPeers (bitmap.peerIds.map (·.peerId))) now).trans
        (takes_updateConnRowsFrom looped)).trans (takes_incVersion middle changed)
      simpa [RouteUpdate.peerItems, RouteUpdate.connItems, RouteUpdate.foreignItems,
        mentioned, rows, rowPeers, rowConns, List.map_flatMap,
        Function.comp_def, stamp, empty, RouteConnInfo.stamp,
        RouteConnInfo.empty] using took
    | connPeerList infos =>
      cases done
      simpa [RouteUpdate.peerItems, RouteUpdate.connItems, RouteUpdate.foreignItems,
        mentioned, rowPeers, rowConns, List.map_flatMap, Function.comp_def,
        stamp, empty, RouteConnInfo.stamp, RouteConnInfo.empty] using
        takes_updateConnInfoWithList info node.details infos now
  | foreignNetwork infos =>
    cases done
    exact takes_updateForeignNetwork info infos now

theorem takes_updateAll {node : RouteNode}
    {updates : List (RouteUpdate × Nat)} (done : node.updateAll info updates = .ok after) :
    Takes info after (stamped (·.peerItems node.details) stamp updates)
      (stamped RouteUpdate.connItems RouteConnInfo.stamp updates)
      (stamped RouteUpdate.foreignItems ForeignNetworkRouteInfoEntry.stamp updates) := by
  induction updates generalizing info with
  | nil =>
    cases done
    exact Takes.refl _
  | cons timed updates ih =>
    unfold RouteNode.updateAll at done
    split at done
    · cases done
    rename_i middle first
    exact (takes_update first).trans (ih done)

/-! ## Databases that received the same updates -/

/-- Equal but for the times of the entries and the order of the maps. -/
structure SyncedRouteInfo.Alike (one other : SyncedRouteInfo) : Prop where
  peerInfos : ∀ key, (one.peerInfos.lookup key).map (·.stamp 0) =
    (other.peerInfos.lookup key).map (·.stamp 0)
  connMap : ∀ key, (one.connMap.lookup key).map (·.stamp 0) =
    (other.connMap.lookup key).map (·.stamp 0)
  foreignNetwork : ∀ key, (one.foreignNetwork.lookup key).map (·.stamp 0) =
    (other.foreignNetwork.lookup key).map (·.stamp 0)

/-- The infos an update is about, with their subjects; placeholders are not among them. -/
def RouteUpdate.peerSubjects : RouteUpdate → List (PeerId × RoutePeerInfo)
  | .peerInfos _ infos _ => infos.map fun info => (info.peerId, info)
  | .connInfo _ | .foreignNetwork _ => []

def RouteUpdate.connSubjects : RouteUpdate → List (PeerId × RouteConnInfo)
  | .connInfo message => message.rows.map fun (peerIdVersion, connectedPeers) =>
      (peerIdVersion.peerId, ⟨connectedPeers, peerIdVersion.version, 0⟩)
  | .peerInfos _ _ _ | .foreignNetwork _ => []

/-- Versions start at 1, and subject and version determine the rest. -/
structure Determined {Key Entry : Type} (subjects : RouteUpdate → List (Key × Entry))
    (version : Entry → Nat) (content : Entry → Entry) (updates : List RouteUpdate) : Prop where
  positive : ∀ update ∈ updates, ∀ item ∈ subjects update, 0 < version item.2
  content : ∀ one ∈ updates, ∀ other ∈ updates, ∀ item ∈ subjects one, ∀ twin ∈ subjects other,
    item.1 = twin.1 → version item.2 = version twin.2 → content item.2 = content twin.2

/-- Every subject of the updates ends at the highest version present. -/
def AtHighest {Key Entry : Type} [DecidableEq Key] (subjects : RouteUpdate → List (Key × Entry))
    (version : Entry → Nat) (updates : List RouteUpdate)
    (before after : AList fun _ : Key => Entry) : Prop :=
  ∀ update ∈ updates, ∀ item ∈ subjects update, ∃ kept, after.lookup item.1 = some kept ∧
    IsGreatest {number | (∃ old, before.lookup item.1 = some old ∧ version old = number) ∨
      ∃ update ∈ updates, ∃ entry, (item.1, entry) ∈ subjects update ∧ version entry = number}
      (version kept)

theorem mem_peerItems {details : Bytes} {item : PeerId × RoutePeerInfo}
    (offered : item ∈ update.peerItems details) :
    item ∈ update.peerSubjects ∨ item.2 = .empty details 0 := by
  cases update with
  | peerInfos => exact .inl offered
  | connInfo message =>
    obtain ⟨peerId, _, rfl⟩ := List.mem_map.mp offered
    exact .inr rfl
  | foreignNetwork => cases offered

theorem mem_connItems {item : PeerId × RouteConnInfo}
    (offered : item ∈ update.connItems) : item ∈ update.connSubjects ∨ item.2 = .empty 0 := by
  cases update with
  | peerInfos | foreignNetwork => cases offered
  | connInfo message =>
    rcases List.mem_append.mp offered with mentioned | inRow
    · obtain ⟨peerId, _, rfl⟩ := List.mem_map.mp mentioned
      exact .inr rfl
    · obtain ⟨⟨peerIdVersion, connectedPeers⟩, row, member⟩ := List.mem_flatMap.mp inRow
      rcases List.mem_append.mp member with named | itself
      · obtain ⟨peerId, _, rfl⟩ := List.mem_map.mp named
        exact .inr rfl
      · exact .inl (List.mem_map.mpr ⟨_, row, (List.mem_singleton.mp itself).symm⟩)

theorem peerSubjects_subset (details : Bytes) (update : RouteUpdate) :
    update.peerSubjects ⊆ update.peerItems details := by
  cases update with
  | peerInfos => exact List.Subset.refl _
  | connInfo | foreignNetwork => exact List.nil_subset _

theorem connSubjects_subset (update : RouteUpdate) : update.connSubjects ⊆ update.connItems := by
  cases update with
  | peerInfos | foreignNetwork => exact List.nil_subset _
  | connInfo message =>
    intro item subject
    obtain ⟨row, isRow, rfl⟩ := List.mem_map.mp subject
    exact List.mem_append_right _ (List.mem_flatMap.mpr ⟨row, isRow, by simp⟩)

/-- Where subject and version determine the rest, they do so among all that is offered: placeholders
have a version of their own. -/
theorem Determined.items {Key Entry : Type} {subjects items : RouteUpdate → List (Key × Entry)}
    {version : Entry → Nat} {content : Entry → Entry} {updates : List RouteUpdate}
    (determined : Determined subjects version content updates) {placeholder : Entry}
    (isEmpty : version placeholder = 0)
    (offered : ∀ update, ∀ item ∈ items update, item ∈ subjects update ∨ item.2 = placeholder) :
    ∀ one ∈ updates, ∀ other ∈ updates, ∀ key a b, (key, a) ∈ items one →
      (key, b) ∈ items other → version a = version b → content a = content b := by
  intro one isOne other isOther key a b inOne inOther equal
  have zero : ∀ {entry : Entry}, entry = placeholder → version entry = 0 := by
    rintro _ rfl
    exact isEmpty
  rcases offered one _ inOne with subject | isPlaceholder
  · have positive : 0 < version a := determined.positive one isOne _ subject
    rcases offered other _ inOther with otherSubject | isPlaceholder
    · exact determined.content one isOne other isOther _ subject _ otherSubject rfl equal
    · have : version b = 0 := zero isPlaceholder
      omega
  · rcases offered other _ inOther with otherSubject | isPlaceholderToo
    · have positive : 0 < version b := determined.positive other isOther _ otherSubject
      have : version a = 0 := zero isPlaceholder
      omega
    · exact congrArg content (isPlaceholder.trans isPlaceholderToo.symm)

/-- Two databases that start alike and receive the same updates, in any order, with any repetitions
and at any times, end alike, with every subject at the highest version present. -/
theorem databases_converge (node : RouteNode) {initial one other : SyncedRouteInfo}
    {first second : List (RouteUpdate × Nat)} (ranFirst : node.updateAll initial first = .ok one)
    (ranSecond : node.updateAll initial second = .ok other)
    (same : ∀ update, update ∈ first.map Prod.fst ↔ update ∈ second.map Prod.fst)
    (peers : Determined RouteUpdate.peerSubjects (·.version) (·.stamp 0) (first.map Prod.fst))
    (conns : Determined RouteUpdate.connSubjects (·.version) (·.stamp 0) (first.map Prod.fst))
    (foreigns : Determined RouteUpdate.foreignItems (·.version) (·.stamp 0) (first.map Prod.fst)) :
    one.Alike other ∧
      AtHighest RouteUpdate.peerSubjects (·.version) (first.map Prod.fst) initial.peerInfos
        one.peerInfos ∧
      AtHighest RouteUpdate.connSubjects (·.version) (first.map Prod.fst) initial.connMap
        one.connMap ∧
      AtHighest RouteUpdate.foreignItems (·.version) (first.map Prod.fst) initial.foreignNetwork
        one.foreignNetwork := by
  have tookFirst := takes_updateAll ranFirst
  have tookSecond := takes_updateAll ranSecond
  refine ⟨⟨fun key => ?_, fun key => ?_, fun key => ?_⟩, ?_, ?_, ?_⟩
  · rw [tookFirst.peerInfos, tookSecond.peerInfos]
    exact lookup_stamped_converge stamping same (peers.items rfl fun _ _ => mem_peerItems) key
  · rw [tookFirst.connMap, tookSecond.connMap]
    exact lookup_stamped_converge RouteConnInfo.stamping same
      (conns.items rfl fun _ _ => mem_connItems) key
  · rw [tookFirst.foreignNetwork, tookSecond.foreignNetwork]
    refine lookup_stamped_converge ForeignNetworkRouteInfoEntry.stamping same ?_ key
    exact fun one isOne other isOther _ _ _ subject twin => foreigns.content one isOne other isOther
      _ subject _ twin rfl
  · intro update isUpdate item subject
    rw [tookFirst.peerInfos]
    refine lookup_stamped_highest stamping (peerSubjects_subset node.details)
      (fun _ _ offered => ?_) isUpdate subject (peers.positive update isUpdate item subject)
    exact (mem_peerItems offered).imp_right fun isEmpty => by rw [isEmpty]; rfl
  · intro update isUpdate item subject
    rw [tookFirst.connMap]
    refine lookup_stamped_highest RouteConnInfo.stamping connSubjects_subset
      (fun _ _ offered => ?_) isUpdate subject (conns.positive update isUpdate item subject)
    exact (mem_connItems offered).imp_right fun isEmpty => by rw [isEmpty]; rfl
  · intro update isUpdate item subject
    rw [tookFirst.foreignNetwork]
    exact lookup_stamped_highest ForeignNetworkRouteInfoEntry.stamping
      (fun _ => List.Subset.refl _) (fun _ _ => .inl) isUpdate subject
      (foreigns.positive update isUpdate item subject)

private def firstNode : RouteNode where
  myPeerId := 1
  myPeerRouteId := 100
  details := [9]

private def infoOfTwo (version : Nat) : RoutePeerInfo where
  peerId := 2
  peerRouteId := 200
  version := version
  avoidRelayData := false
  details := [BitVec.ofNat 8 version]
  lastUpdate := 0

private def olderInfo : RouteUpdate := .peerInfos 2 [infoOfTwo 1] [[1]]

private def newerInfo : RouteUpdate := .peerInfos 3 [infoOfTwo 2] [[2]]

/-- Peers 2 and 3 are connected with each other. -/
private def asBitmap : RouteUpdate := .connInfo (.connBitmap ⟨[⟨2, 1⟩, ⟨3, 1⟩], [0b0110#8]⟩)

/-- Peer 3 is now connected with peer 4 as well. -/
private def asList : RouteUpdate := .connInfo (.connPeerList [⟨some ⟨3, 2⟩, [4, 2]⟩])

private def oneOrder : List (RouteUpdate × Nat) :=
  [(olderInfo, 10), (newerInfo, 11), (asBitmap, 12), (asList, 13)]

private def otherOrder : List (RouteUpdate × Nat) :=
  [(asList, 20), (newerInfo, 21), (asList, 22), (asBitmap, 23), (olderInfo, 24), (newerInfo, 25)]

theorem two_orders_converge :
    ∃ one other, firstNode.updateAll .empty oneOrder = .ok one ∧
      firstNode.updateAll .empty otherOrder = .ok other ∧ one.Alike other := by
  have finishes : ∀ order ∈ [oneOrder, otherOrder],
      ∃ after, firstNode.updateAll .empty order = .ok after := by
    intro order isOrder
    have isOk : (firstNode.updateAll .empty order).isOk = true := by
      revert order
      decide +kernel
    cases done : firstNode.updateAll .empty order with
    | ok after => exact ⟨after, rfl⟩
    | error error =>
      rw [done] at isOk
      cases isOk
  obtain ⟨one, ranFirst⟩ := finishes oneOrder (by simp)
  obtain ⟨other, ranSecond⟩ := finishes otherOrder (by simp)
  refine ⟨one, other, ranFirst, ranSecond, (databases_converge firstNode ranFirst ranSecond ?_
    ⟨?_, ?_⟩ ⟨?_, ?_⟩ ⟨?_, ?_⟩).1⟩
  · intro update
    simp only [oneOrder, otherOrder, List.map_cons, List.map_nil, List.mem_cons]
    tauto
  all_goals decide +kernel

end EasyTier.Route
