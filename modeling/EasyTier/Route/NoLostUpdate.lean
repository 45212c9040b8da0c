import EasyTier.Route.SyncRounds

/-! # No update is lost by the incremental sync

Every entry the scans skip for being older than the last sync is known to the destination or listed
as unreachable. This needs two things the code does not see to: a round that sends the cached
bitmap must not find it older than what the round found to send, and a response that brings a new
session id must answer a request that held everything.
-/

namespace EasyTier.Route

open Data Semantics Incremental SyncRouteSession SyncedRouteInfo SyncRouteSession Ledger SyncRequest
open Data.Incremental (Touched Tracks Promises Holds Covered)

/-! ## Changes of the database -/

/-- Both maps changed only by entries stamped now. -/
structure Changes (now : Nat) (before after : SyncedRouteInfo) : Prop where
  peers : Touched peerStamps now before.peerInfos after.peerInfos
  conns : Touched connStamps now before.connMap after.connMap

namespace Changes

variable (info : SyncedRouteInfo)

theorem refl (now : Nat) (info : SyncedRouteInfo) : Changes now info info := ⟨.refl, .refl⟩

theorem trans {now : Nat} {first second third : SyncedRouteInfo} (left : Changes now first second)
    (right : Changes now second third) : Changes now first third :=
  ⟨left.peers.trans right.peers, left.conns.trans right.conns⟩

variable {now : Nat}

theorem incVersion (changed : Bool) : Changes now info (info.incVersion changed) := by
  cases changed <;> exact ⟨.refl, .refl⟩

theorem insertPeer (raws : AList fun _ : PeerId => Bytes) (peerId : PeerId)
    (new : RoutePeerInfo) (current : new.lastUpdate = now)
    (keyed : new.version ≠ 0 → new.peerId = peerId) :
    Changes now info
      { info with rawPeerInfos := raws, peerInfos := info.peerInfos.insert peerId new } :=
  ⟨.insert .refl peerId current keyed, .refl⟩

theorem insertConn (peerId : PeerId) (new : RouteConnInfo) (current : new.lastUpdate = now) :
    Changes now info { info with connMap := info.connMap.insert peerId new } :=
  ⟨.refl, .insert .refl peerId current fun _ => rfl⟩

theorem of_connWrites {details : Bytes} {info after : SyncedRouteInfo}
    (writes : SyncedRouteInfo.ConnWrites details now info after) : Changes now info after := by
  induction writes with
  | refl => exact refl now info
  | tail _ write ih =>
    refine ih.trans ?_
    cases write with
    | incVersion changed => exact incVersion _ changed
    | fill absent => exact insertPeer _ _ _ _ rfl fun positive => absurd rfl positive
    | conn peerId current => exact insertConn _ peerId _ current

theorem of_peerWrites {offered : List (RoutePeerInfo × Bytes)} {info after : SyncedRouteInfo}
    (writes : SyncedRouteInfo.PeerWrites now offered info after) : Changes now info after := by
  induction writes with
  | refl => exact refl now info
  | tail _ write ih =>
    refine ih.trans ?_
    cases write with
    | incVersion changed => exact incVersion _ changed
    | store _ _ => exact insertPeer _ _ _ _ rfl fun _ => rfl

theorem updateForeignNetwork (infos : List ForeignNetworkInfo) :
    Changes now info (info.updateForeignNetwork infos now).1 := by
  have looped : ∀ state : SyncedRouteInfo × Bool,
      Changes now state.1 (infos.foldl (updateForeignOne now) state).1 := by
    induction infos with
    | nil => exact fun state => refl now state.1
    | cons item infos ih =>
      refine fun state => trans ?_ (ih _)
      unfold updateForeignOne
      split
      · dsimp only
        split
        · exact ⟨.refl, .refl⟩
        · exact refl now state.1
      · exact refl now state.1
  exact looped (info, false)

theorem touched_eraseAll {Value : Type} {stamps : Incremental.Stamps PeerId Value}
    (map : AList fun _ : PeerId => Value) (peerIds : List PeerId) :
    Touched stamps now map (eraseAll map peerIds) := by
  induction peerIds generalizing map with
  | nil => exact .refl
  | cons peerId peerIds ih => exact (Touched.refl.erase peerId).trans (ih (map.erase peerId))

/-- Every change of the database stamps what it writes. -/
theorem change (config : SyncConfig) (info : SyncedRouteInfo) (kind : DatabaseChange) :
    Changes now info (info.change config now kind) := by
  cases kind with
  | peerInfo new raw =>
    simp only [SyncedRouteInfo.change]
    split
    · exact insertPeer info _ new.peerId { new with lastUpdate := now } rfl fun _ => rfl
    · exact refl now info
  | connInfo peerIdVersion connectedPeers =>
    simp only [SyncedRouteInfo.change, SyncedRouteInfo.updateConnInfoOnePeer]
    split
    · exact insertConn info _ _ rfl
    · exact refl now info
  | fillEmptyPeerInfo peerId =>
    simp only [SyncedRouteInfo.change]
    split
    · exact refl now info
    · exact insertPeer info _ peerId (.empty config.defaultDetails now) rfl
        fun positive => absurd rfl positive
  | fillEmptyConnInfo peerId =>
    simp only [SyncedRouteInfo.change]
    split
    · exact refl now info
    · exact insertConn info peerId (.empty now) rfl
  | myPeerInfo new => exact insertPeer info _ config.myPeerId _ rfl fun _ => rfl
  | myConnInfo connectedPeers =>
    simp only [SyncedRouteInfo.change, SyncedRouteInfo.updateMyConnInfo]
    split
    · exact insertConn info config.myPeerId _ rfl
    · exact refl now info
  | removePeers peerIds => exact ⟨touched_eraseAll _ peerIds, touched_eraseAll _ peerIds⟩
  | foreignNetwork infos => exact updateForeignNetwork info infos
  | incVersion => exact incVersion info true

end Changes

/-! ## The invariant -/

variable (session : SyncRouteSession)

namespace SyncState

/-- The record of the neighbour's peer infos is right. -/
def PeersTracked (config : SyncConfig) (state : SyncState) : Prop :=
  Tracks peerStamps config.dstPeerId state.now state.session.lastSyncSuccTimestamp
    state.session.dstSavedPeerInfoVersions state.session.unreachablePeersForPeerInfo
    state.peerLedger.known state.synced.peerInfos

/-- The record of its connections is right. -/
def ConnsTracked (config : SyncConfig) (state : SyncState) : Prop :=
  Tracks connStamps config.dstPeerId state.now state.session.lastSyncSuccTimestamp
    state.session.dstSavedConnInfoVersion state.session.unreachablePeersForConnInfo
    state.connLedger.known state.synced.connMap

/-- What a request under way covers once it is acknowledged. -/
structure Promised (config : SyncConfig) (state : SyncState) (request : SyncRequest) : Prop where
  peers : Promises peerStamps config.dstPeerId state.peerLedger.known
    state.session.unreachablePeersForPeerInfo state.synced.peerInfos
    request.nextLastSyncSuccTimestamp request.peerVersions
  conns : Promises connStamps config.dstPeerId state.connLedger.known
    state.session.unreachablePeersForConnInfo state.synced.connMap
    request.nextLastSyncSuccTimestamp request.connVersions

/-- The invariant of a session and its requests. -/
structure Sound (config : SyncConfig) (state : SyncState) : Prop where
  peers : state.PeersTracked config
  conns : state.ConnsTracked config
  begun : ∀ request ∈ state.requests, request.nextLastSyncSuccTimestamp ≤ state.now
  revisions : ∀ request ∈ state.requests,
    request.snapshot.stateRevision ≤ state.session.stateRevision
  promised : ∀ request ∈ state.requests, state.session.requestIsCurrent request.snapshot →
    state.Promised config request

variable {config : SyncConfig} {state : SyncState}

theorem Sound.initial (mySessionId : Nat) : Sound config (.initial mySessionId) where
  peers := Tracks.empty peerStamps config.dstPeerId 0
  conns := Tracks.empty connStamps config.dstPeerId 0
  begun := fun _ none => absurd none List.not_mem_nil
  revisions := fun _ none => absurd none List.not_mem_nil
  promised := fun _ none => absurd none List.not_mem_nil

theorem Sound.tick (sound : state.Sound config) {time : Nat} (later : state.now ≤ time) :
    Sound config { state with now := time } where
  peers := sound.peers.later later
  conns := sound.conns.later later
  begun := fun request member => Nat.le_trans (sound.begun request member) later
  revisions := sound.revisions
  promised := fun request member current =>
    let promised := sound.promised request member current
    ⟨promised.peers, promised.conns⟩

/-- The database changes. -/
theorem Sound.changed (sound : state.Sound config) {synced : SyncedRouteInfo}
    (changes : Changes state.now state.synced synced) :
    Sound config { state with synced := synced } where
  peers := sound.peers.touch changes.peers
  conns := sound.conns.touch changes.conns
  begun := sound.begun
  revisions := sound.revisions
  promised := fun request member current =>
    let promised := sound.promised request member current
    ⟨promised.peers.touch (sound.begun request member) changes.peers,
      promised.conns.touch (sound.begun request member) changes.conns⟩

/-- Requests are answered or given up. -/
theorem Sound.fewer (sound : state.Sound config) {requests : List SyncRequest}
    (fewer : requests ⊆ state.requests) : Sound config { state with requests := requests } where
  peers := sound.peers
  conns := sound.conns
  begun := fun request member => sound.begun request (fewer member)
  revisions := fun request member => sound.revisions request (fewer member)
  promised := fun request member current =>
    let promised := sound.promised request (fewer member) current
    ⟨promised.peers, promised.conns⟩

/-! ### Session ids and roles -/

/-- Two sessions that know the same of the destination. -/
structure SameKnowledge (before after : SyncRouteSession) : Prop where
  savedPeers : after.dstSavedPeerInfoVersions = before.dstSavedPeerInfoVersions
  savedConns : after.dstSavedConnInfoVersion = before.dstSavedConnInfoVersion
  unreachablePeers : after.unreachablePeersForPeerInfo = before.unreachablePeersForPeerInfo
  unreachableConns : after.unreachablePeersForConnInfo = before.unreachablePeersForConnInfo
  lastSync : after.lastSyncSuccTimestamp = before.lastSyncSuccTimestamp

/-- No request becomes current again. -/
structure Advances (before after : SyncRouteSession) : Prop where
  revision : before.stateRevision ≤ after.stateRevision
  current : ∀ snapshot : SyncRequestSnapshot, snapshot.stateRevision ≤ before.stateRevision →
    after.requestIsCurrent snapshot → before.requestIsCurrent snapshot

theorem not_current_of_smaller {session : SyncRouteSession} {snapshot : SyncRequestSnapshot}
    (smaller : snapshot.stateRevision < session.stateRevision) :
    ¬session.requestIsCurrent snapshot := by
  intro current
  have same : snapshot = session.requestSnapshot := by
    simpa [requestIsCurrent] using current
  have : snapshot.stateRevision = session.stateRevision := by rw [same]; rfl
  omega

theorem Advances.of_larger {before after : SyncRouteSession}
    (larger : before.stateRevision < after.stateRevision) : Advances before after where
  revision := Nat.le_of_lt larger
  current := fun _ bound current =>
    absurd current (not_current_of_smaller (Nat.lt_of_le_of_lt bound larger))

theorem Advances.of_same {before after : SyncRouteSession}
    (same : after.requestSnapshot = before.requestSnapshot) : Advances before after where
  revision := Nat.le_of_eq (congrArg SyncRequestSnapshot.stateRevision same).symm
  current := fun snapshot _ current => by
    rw [requestIsCurrent] at current ⊢
    rw [← same]
    exact current

/-- The session changes its roles. -/
theorem Sound.withSession (sound : state.Sound config) {session : SyncRouteSession}
    (same : SameKnowledge state.session session) (advances : Advances state.session session) :
    Sound config { state with session := session } where
  peers := by
    have tracked := sound.peers
    unfold PeersTracked at tracked ⊢
    rwa [← same.savedPeers, ← same.unreachablePeers, ← same.lastSync] at tracked
  conns := by
    have tracked := sound.conns
    unfold ConnsTracked at tracked ⊢
    rwa [← same.savedConns, ← same.unreachableConns, ← same.lastSync] at tracked
  begun := sound.begun
  revisions := fun request member => Nat.le_trans (sound.revisions request member) advances.revision
  promised := fun request member current => by
    obtain ⟨peers, conns⟩ := sound.promised request member
      (advances.current _ (sound.revisions request member) current)
    rw [← same.unreachablePeers] at peers
    rw [← same.unreachableConns] at conns
    exact ⟨peers, conns⟩

theorem sameKnowledge_updateRemoteState (isInitiator : Bool) :
    SameKnowledge session (session.updateRemoteState session.dstSessionId isInitiator) := by
  constructor <;> simp [SyncRouteSession.updateRemoteState]

theorem advances_updateRemoteState (sessionId : Nat)
    (isInitiator : Bool) : Advances session (session.updateRemoteState sessionId isInitiator) := by
  by_cases changed : sessionId ≠ session.dstSessionId ∨ isInitiator ≠ session.dstIsInitiator
  · refine .of_larger ?_
    simp [SyncRouteSession.updateRemoteState, changed]
  · obtain ⟨sameId, sameRole⟩ := not_or.mp changed
    refine .of_same ?_
    simp_all [SyncRouteSession.updateRemoteState, SyncRouteSession.requestSnapshot]

theorem advances_updateInitiatorFlag (isInitiator : Bool) :
    Advances session (session.updateInitiatorFlag isInitiator) := by
  by_cases same : session.weAreInitiator = isInitiator
  · refine .of_same ?_
    simp [updateInitiatorFlag, requestSnapshot, same]
  · refine .of_larger ?_
    simp [updateInitiatorFlag, same]

/-- The destination's state is taken over; under a new session id the session starts over. -/
theorem Sound.updateRemoteState (sound : state.Sound config) (sessionId : Nat)
    (isInitiator : Bool) :
    Sound config (state.updateRemoteState sessionId isInitiator) := by
  have advances := advances_updateRemoteState state.session sessionId isInitiator
  by_cases changed : sessionId = state.session.dstSessionId
  · subst changed
    have kept := sound.withSession (sameKnowledge_updateRemoteState state.session isInitiator)
        advances
    simpa [SyncState.updateRemoteState] using kept
  have larger : state.session.stateRevision <
      (state.session.updateRemoteState sessionId isInitiator).stateRevision := by
    simp [SyncRouteSession.updateRemoteState, changed]
  constructor
  · have restarted := sound.peers.restart
    simpa [PeersTracked, SyncState.updateRemoteState, SyncRouteSession.updateRemoteState, changed,
      forgetDst, known] using restarted
  · have restarted := sound.conns.restart
    simpa [ConnsTracked, SyncState.updateRemoteState, SyncRouteSession.updateRemoteState, changed,
      forgetDst, known] using restarted
  · exact sound.begun
  · exact fun request member => Nat.le_trans (sound.revisions request member) advances.revision
  · intro request member current
    exact absurd current
      (not_current_of_smaller (Nat.lt_of_le_of_lt (sound.revisions request member) larger))

/-! ### Acknowledgements -/

theorem lastSync_updateLastSyncSuccTimestamp (next : Nat) :
    (session.updateLastSyncSuccTimestamp next).lastSyncSuccTimestamp =
      some (session.lastSyncSuccTimestamp.elim next (max · next)) := by
  unfold updateLastSyncSuccTimestamp
  cases last : session.lastSyncSuccTimestamp with
  | none => simp
  | some time =>
    by_cases later : time < next
    · simp [later, Nat.max_eq_right (Nat.le_of_lt later)]
    · simp [later, last, Nat.max_eq_left (Nat.le_of_not_lt later)]

theorem updateLastSyncSuccTimestamp_eq (next : Nat) :
    session.updateLastSyncSuccTimestamp next =
      { session with
        lastSyncSuccTimestamp := some (session.lastSyncSuccTimestamp.elim next (max · next)) } := by
  rw [← lastSync_updateLastSyncSuccTimestamp]
  unfold updateLastSyncSuccTimestamp
  split <;> rfl

/-- What taking the versions of a request does to the session. -/
theorem saveVersions_session (config : SyncConfig) (state : SyncState) (request : SyncRequest) :
    ∃ networks, (state.saveVersions config request).session =
      { state.session with
        dstSavedPeerInfoVersions := record config.dstPeerId
          state.session.dstSavedPeerInfoVersions request.peerVersions
        dstSavedConnInfoVersion := record config.dstPeerId
          state.session.dstSavedConnInfoVersion request.connVersions
        dstSavedForeignNetworkVersions := networks
        lastSyncSuccTimestamp := some (state.session.lastSyncSuccTimestamp.elim
          request.nextLastSyncSuccTimestamp (max · request.nextLastSyncSuccTimestamp)) } := by
  simp only [saveVersions, updateLastSyncSuccTimestamp_eq, peerVersions,
    connVersions]
  cases request.peerInfos <;> cases request.connInfo <;> cases request.foreignNetwork <;>
    exact ⟨_, rfl⟩

variable {request : SyncRequest}

theorem Sound.saveVersions (sound : state.Sound config)
    (begun : request.nextLastSyncSuccTimestamp ≤ state.now)
    (promised : state.Promised config request) :
    Sound config (state.saveVersions config request) := by
  obtain ⟨networks, isSession⟩ := saveVersions_session config state request
  have keepsPeers :
      state.peerLedger.known ⊆ (state.saveVersions config request).peerLedger.known := by
    simp [SyncState.saveVersions, known]
  have keepsConns :
      state.connLedger.known ⊆ (state.saveVersions config request).connLedger.known := by
    simp [SyncState.saveVersions, known]
  constructor
  · unfold PeersTracked
    rw [isSession]
    exact sound.peers.acknowledge promised.peers begun keepsPeers
      (by simp [SyncState.saveVersions, known])
  · unfold ConnsTracked
    rw [isSession]
    exact sound.conns.acknowledge promised.conns begun keepsConns
      (by simp [SyncState.saveVersions, known])
  · exact sound.begun
  · rw [isSession]
    exact sound.revisions
  · rw [isSession]
    intro other member current
    have othersPromised := sound.promised other member current
    constructor
    · rw [isSession]
      exact othersPromised.peers.mono keepsPeers
    · rw [isSession]
      exact othersPromised.conns.mono keepsConns

/-! ### Rounds -/

/-- The cached bitmap has a row, no older than the database's, of every reachable peer whose
connections the destination is not known to have. -/
def CacheCovers (config : SyncConfig) (state : SyncState) : Prop :=
  ∀ item ∈ state.synced.connMap.entries, state.topologyPeerReachable item.1 →
    ¬upToDate config.dstPeerId state.session.dstSavedConnInfoVersion item.1
      item.2.version →
    ∃ row ∈ state.cachedLocalConnMap.peerIds, row.peerId = item.1 ∧ item.2.version ≤ row.version

/-- What the first half of a sync does. -/
theorem beginSync_cases (config : SyncConfig) (state : SyncState) (syncAsInitiator : Bool) :
    ∃ flag requests, state.beginSync config syncAsInitiator =
        { state with
          session := { state.session with
            unreachablePeersForPeerInfo := (state.buildRouteInfo config).2
            unreachablePeersForConnInfo := (state.buildConnInfo config).2
            needSyncInitiatorInfo := flag }
          requests := requests } ∧
      (requests = state.requests ∨ ∃ request, requests = request :: state.requests ∧
        request.snapshot = state.session.requestSnapshot ∧
        request.nextLastSyncSuccTimestamp = state.now ∧
        request.peerInfos = (state.buildRouteInfo config).1 ∧
        request.connInfo = (state.buildConnInfo config).1) := by
  unfold beginSync
  dsimp only
  split
  · exact ⟨state.session.needSyncInitiatorInfo, state.requests, rfl, .inl rfl⟩
  · exact ⟨false, _, rfl, .inr ⟨_, rfl, rfl, rfl, rfl, rfl⟩⟩

theorem mem_peerVersions_of_built
    (isBuilt : request.peerInfos = (state.buildRouteInfo config).1) {key : PeerId}
    {entry : RoutePeerInfo}
    (sent : (key, entry) ∈ (build peerStamps config.dstPeerId
      state.topologyPeerReachable state.session.lastSyncSuccTimestamp
      state.session.dstSavedPeerInfoVersions state.session.unreachablePeersForPeerInfo
      state.synced.peerInfos).1) :
    (entry.peerId, entry.version) ∈ request.peerVersions := by
  have nonempty := List.ne_nil_of_mem sent
  simp only [peerVersions, isBuilt, buildRouteInfo, List.isEmpty_iff, nonempty, if_false,
    Option.elim_some, infoVersions, List.map_map]
  exact List.mem_map.mpr ⟨_, sent, rfl⟩

/-- The connections a round found are in the list it sends, or covered by the cached bitmap. -/
theorem holds_connVersions_of_built
    (isBuilt : request.connInfo = (state.buildConnInfo config).1) (cache : state.CacheCovers config)
    {key : PeerId} {entry : RouteConnInfo} (found : state.synced.connMap.lookup key = some entry)
    (reached : state.topologyPeerReachable key)
    (lacks : ¬upToDate config.dstPeerId state.session.dstSavedConnInfoVersion key
      entry.version)
    (sent : (key, entry) ∈ (build connStamps config.dstPeerId
      state.topologyPeerReachable state.session.lastSyncSuccTimestamp
      state.session.dstSavedConnInfoVersion state.session.unreachablePeersForConnInfo
      state.synced.connMap).1) :
    Holds request.connVersions key entry.version := by
  have nonempty := List.ne_nil_of_mem sent
  simp only [connVersions, isBuilt, buildConnInfo, buildConnPeerList, List.isEmpty_iff,
    nonempty, if_false, Option.map_some, Option.elim_some]
  split
  · refine ⟨entry.version, Nat.le_refl _, ?_⟩
    simp only [ConnInfo.versions, List.mem_filterMap]
    exact ⟨_, List.mem_map_of_mem sent, rfl⟩
  · obtain ⟨row, member, isRow, newer⟩ :=
      cache ⟨key, entry⟩ (AList.mem_lookup_iff.mp found) reached lacks
    exact ⟨row.version, newer, List.mem_map.mpr ⟨row, member, by rw [isRow]⟩⟩

theorem Sound.beginSync (sound : state.Sound config) (cache : state.CacheCovers config)
    (syncAsInitiator : Bool) : Sound config (state.beginSync config syncAsInitiator) := by
  obtain ⟨flag, requests, isState, isRequests⟩ := beginSync_cases config state syncAsInitiator
  rw [isState]
  have kept : ∀ request ∈ state.requests, state.session.requestIsCurrent request.snapshot →
      Promised config { state with
        session := { state.session with
          unreachablePeersForPeerInfo := (state.buildRouteInfo config).2
          unreachablePeersForConnInfo := (state.buildConnInfo config).2
          needSyncInitiatorInfo := flag }
        requests := requests } request := by
    intro request member current
    have promised := sound.promised request member current
    exact ⟨promised.peers.build sound.peers _, promised.conns.build sound.conns _⟩
  refine ⟨sound.peers.build _, sound.conns.build _, ?_, ?_, ?_⟩
  · intro request member
    rcases isRequests with rfl | ⟨new, rfl, _, isTime, _, _⟩
    · exact sound.begun request member
    · rcases List.mem_cons.mp member with rfl | older
      · exact Nat.le_of_eq isTime
      · exact sound.begun request older
  · intro request member
    rcases isRequests with rfl | ⟨new, rfl, isSnapshot, _, _, _⟩
    · exact sound.revisions request member
    · rcases List.mem_cons.mp member with rfl | older
      · rw [isSnapshot]
        exact Nat.le_refl _
      · exact sound.revisions request older
  · intro request member current
    rcases isRequests with rfl | ⟨new, rfl, _, _, isPeers, isConns⟩
    · exact kept request member current
    · rcases List.mem_cons.mp member with rfl | older
      · constructor
        · refine sound.peers.promises (fun key entry sent found positive _ _ _ => ?_) _
          have keyed : entry.peerId = key := sound.peers.keyed key entry found positive
          refine ⟨entry.version, Nat.le_refl _, ?_⟩
          rw [← keyed]
          exact mem_peerVersions_of_built isPeers sent
        · refine sound.conns.promises (fun key entry sent found _ _ reached lacks => ?_) _
          exact holds_connVersions_of_built isConns cache found reached lacks sent
      · exact kept request older current

/-! ### Responses -/

/-- The request holds every entry older than it. -/
def HoldsAll (config : SyncConfig) (state : SyncState) (request : SyncRequest) : Prop :=
  (∀ item ∈ state.synced.peerInfos.entries, item.2.version ≠ 0 → item.1 ≠ config.dstPeerId →
    item.2.lastUpdate < request.nextLastSyncSuccTimestamp →
    ∃ sent ∈ request.peerVersions, sent.1 = item.1 ∧ item.2.version ≤ sent.2) ∧
  ∀ item ∈ state.synced.connMap.entries, item.2.version ≠ 0 → item.1 ≠ config.dstPeerId →
    item.2.lastUpdate < request.nextLastSyncSuccTimestamp →
    ∃ sent ∈ request.connVersions, sent.1 = item.1 ∧ item.2.version ≤ sent.2

theorem holds_of_sent {sent : List (PeerId × Nat)} {peerId : PeerId} {version : Nat}
    (isSent : ∃ item ∈ sent, item.1 = peerId ∧ version ≤ item.2) : Holds sent peerId version := by
  obtain ⟨item, member, rfl, newer⟩ := isSent
  exact ⟨item.2, newer, member⟩

theorem HoldsAll.promised (all : state.HoldsAll config request)
    {known : SyncState} (sameDatabase : known.synced = state.synced) :
    known.Promised config request := by
  constructor
  · intro key entry found positive away old
    rw [sameDatabase] at found
    exact .inr (holds_of_sent
      (all.1 ⟨key, entry⟩ (AList.mem_lookup_iff.mp found) positive away old))
  · intro key entry found positive away old
    rw [sameDatabase] at found
    exact .inr (holds_of_sent
      (all.2 ⟨key, entry⟩ (AList.mem_lookup_iff.mp found) positive away old))

section

variable (sound : state.Sound config)
include sound

theorem Sound.requestInitiatorSync : Sound config state.requestInitiatorSync :=
  sound.withSession ⟨rfl, rfl, rfl, rfl, rfl⟩ (.of_same rfl)

/-- A response is taken; one under a new session id must answer a request that held everything. -/
theorem Sound.commitResponse (begun : request.nextLastSyncSuccTimestamp ≤ state.now)
    (promised : state.session.requestIsCurrent request.snapshot → state.Promised config request)
    {response : SyncRouteInfoResponse}
    (renews : response.sessionId ≠ state.session.dstSessionId → state.HoldsAll config request) :
    Sound config (state.commitResponse config request response) := by
  unfold SyncState.commitResponse
  split
  · exact sound
  rename_i isCurrent
  split
  · split
    · unfold clearDstInitiatorIfSessionUnchanged
      split
      · exact sound
      · rename_i unchanged
        rw [← not_not.mp unchanged]
        exact sound.withSession (sameKnowledge_updateRemoteState state.session false)
          (advances_updateRemoteState _ _ _)
    · exact sound.requestInitiatorSync
  · exact sound
  · exact sound.requestInitiatorSync
  · refine (sound.updateRemoteState _ _).saveVersions begun ?_
    by_cases changed : response.sessionId = state.session.dstSessionId
    · have current := promised (by simpa using isCurrent)
      have same := sameKnowledge_updateRemoteState state.session response.isInitiator
      constructor
      · simpa [SyncState.updateRemoteState, changed, same.unreachablePeers] using current.peers
      · simpa [SyncState.updateRemoteState, changed, same.unreachableConns] using current.conns
    · exact (renews changed).promised rfl

theorem Sound.commitFailure (request : SyncRequest) :
    Sound config (state.commitFailure request) := by
  unfold SyncState.commitFailure
  split
  · exact sound
  · exact sound.requestInitiatorSync

/-! ### Requests of the destination -/

theorem Sound.receivePeerInfos (infos : List RoutePeerInfo)
    (raws : List Bytes) : Sound config (state.receivePeerInfos config infos raws).2 := by
  have changes : Changes state.now state.synced _ := .of_peerWrites
    (state.synced.peerWrites_updatePeerInfos config.myPeerId config.myPeerRouteId config.dstPeerId
      infos raws state.now)
  unfold SyncState.receivePeerInfos
  split
  · rename_i ended
    rw [ended] at changes
    exact sound.changed changes
  rename_i synced ended
  rw [ended] at changes
  have changed := sound.changed changes
  have keeps := state.peerLedger.known_subset_receive (infoVersions infos)
  refine ⟨?_, changed.conns, changed.begun, changed.revisions, fun request member current => ?_⟩
  · exact changed.peers.receive (infoVersions infos) keeps
      (state.peerLedger.subset_known_receive (infoVersions infos))
  · have promised := changed.promised request member current
    exact ⟨promised.peers.mono keeps, promised.conns⟩

theorem Sound.receiveConnInfo (connInfo : ConnInfo) :
    Sound config (state.receiveConnInfo config connInfo).2 := by
  have changes : Changes state.now state.synced _ :=
    .of_connWrites (state.synced.connWrites_updateConnInfo config.defaultDetails connInfo)
  unfold SyncState.receiveConnInfo
  split
  · rename_i ended
    rw [ended] at changes
    exact sound.changed changes
  rename_i synced ended
  rw [ended] at changes
  have changed := sound.changed changes
  have keeps := state.connLedger.known_subset_receive connInfo.versions
  refine ⟨changed.peers, ?_, changed.begun, changed.revisions, fun request member current => ?_⟩
  · exact changed.conns.receive connInfo.versions keeps
      (state.connLedger.subset_known_receive connInfo.versions)
  · have promised := changed.promised request member current
    exact ⟨promised.peers, promised.conns.mono keeps⟩

theorem Sound.receiveForeignNetwork (infos : List ForeignNetworkInfo) :
    Sound config (state.receiveForeignNetwork config infos).2 :=
  (sound.changed (Changes.updateForeignNetwork state.synced infos)).withSession
    ⟨rfl, rfl, rfl, rfl, rfl⟩ (.of_same rfl)

omit sound in
theorem Sound.andThen {Part : Type} {outcome : Except HandlingError Unit × SyncState}
    (sound : outcome.2.Sound config) {part : Option Part}
    {next : SyncState → Part → Except HandlingError Unit × SyncState}
    (keeps : ∀ state part, Sound config state → Sound config (next state part).2) :
    Sound config (andThen outcome part next).2 := by
  unfold SyncState.andThen
  split
  · exact keeps _ _ sound
  · exact sound

theorem Sound.inbound (sessionId : Nat) (isInitiator : Bool)
    (peerInfos : Option (List RoutePeerInfo × List Bytes)) (connInfo : Option ConnInfo)
    (foreignNetwork : Option (List ForeignNetworkInfo)) :
    Sound config
      (state.inbound config sessionId isInitiator peerInfos connInfo foreignNetwork) := by
  unfold SyncState.inbound
  split
  · exact sound
  · refine .andThen (.andThen (.andThen (sound.updateRemoteState _ _) ?_) ?_) ?_
    · exact fun _ infos kept => kept.receivePeerInfos infos.1 infos.2
    · exact fun _ info kept => kept.receiveConnInfo info
    · exact fun _ infos kept => kept.receiveForeignNetwork infos

end

/-! ## Runs -/

/-- What the code does not see to: a round finds the cached bitmap up to date, and a response under
a new session id answers a request that held everything. -/
def Careful (config : SyncConfig) (state : SyncState) : SyncEvent → Prop
  | .beginSync _ => state.CacheCovers config
  | .response index response =>
    response.sessionId ≠ state.session.dstSessionId →
      ∀ request ∈ state.requests[index]?, state.HoldsAll config request
  | _ => True

instance (config : SyncConfig) (state : SyncState) : Decidable (state.CacheCovers config) :=
  inferInstanceAs (Decidable (∀ item ∈ state.synced.connMap.entries, _ → ¬_ → _))

instance (config : SyncConfig) (state : SyncState) (request : SyncRequest) :
    Decidable (state.HoldsAll config request) :=
  inferInstanceAs (Decidable ((∀ item ∈ state.synced.peerInfos.entries, _ → _ → _ → _) ∧
    ∀ item ∈ state.synced.connMap.entries, _ → _ → _ → _))

instance (config : SyncConfig) (state : SyncState) (event : SyncEvent) :
    Decidable (state.Careful config event) := by
  unfold Careful
  cases_type SyncEvent <;> infer_instance

theorem Sound.step {after : SyncState} {event : SyncEvent} (sound : state.Sound config)
    (careful : state.Careful config event) (steps : state.step config event = some after) :
    Sound config after := by
  cases event with
  | tick time =>
    simp only [SyncState.step] at steps
    split at steps
    · rename_i later
      cases steps
      exact sound.tick later
    · cases steps
  | change change =>
    cases steps
    exact sound.changed (Changes.change config state.synced change)
  | updateTopology reachable =>
    cases steps
    exact ⟨sound.peers, sound.conns, sound.begun, sound.revisions, fun request member current =>
      ⟨(sound.promised request member current).peers,
        (sound.promised request member current).conns⟩⟩
  | updateCachedLocalConnBitmap =>
    cases steps
    unfold updateCachedLocalConnBitmap
    split
    · exact ⟨sound.peers, sound.conns, sound.begun, sound.revisions, fun request member current =>
        ⟨(sound.promised request member current).peers,
          (sound.promised request member current).conns⟩⟩
    · exact sound
  | beginSync syncAsInitiator =>
    cases steps
    exact sound.beginSync careful syncAsInitiator
  | response index response =>
    obtain ⟨request, isRequest, rfl⟩ := Option.map_eq_some_iff.mp steps
    have member := List.mem_of_getElem? isRequest
    have fewer := sound.fewer (List.eraseIdx_subset (l := state.requests) (k := index))
    refine fewer.commitResponse (sound.begun request member) (fun current => ?_) fun changed => ?_
    · have promised := sound.promised request member current
      exact ⟨promised.peers, promised.conns⟩
    · exact careful changed request isRequest
  | rpcFailed index =>
    obtain ⟨request, _, rfl⟩ := Option.map_eq_some_iff.mp steps
    exact (sound.fewer (List.eraseIdx_subset (l := state.requests) (k := index))).commitFailure
      request
  | inbound sessionId isInitiator peerInfos connInfo foreignNetwork =>
    cases steps
    exact sound.inbound sessionId isInitiator peerInfos connInfo foreignNetwork
  | updateInitiatorFlag isInitiator =>
    cases steps
    exact sound.withSession ⟨rfl, rfl, rfl, rfl, rfl⟩ (advances_updateInitiatorFlag _ _)
  | clearStaleDstInitiator =>
    cases steps
    unfold clearStaleDstInitiator
    split
    · exact sound
    · exact sound.withSession (sameKnowledge_updateRemoteState state.session false)
        (advances_updateRemoteState _ _ _)
  | cleanDstSavedMap expiredPeers expiredConns expiredNetworks =>
    cases steps
    refine ⟨sound.peers.forget fun peerId _ => peerId ∉ expiredPeers,
      sound.conns.forget fun peerId _ => peerId ∉ expiredConns, sound.begun, sound.revisions, ?_⟩
    intro request member current
    have promised := sound.promised request member current
    exact ⟨promised.peers, promised.conns⟩

/-- An entry is accounted for: a version at least as new was acknowledged by or received from the
destination, or the peer is still listed as unreachable. -/
def Accounts (ledger : Ledger) (unreachable : AList fun _ : PeerId => Nat) (peerId : PeerId)
    (version : Nat) : Prop :=
  Holds ledger.acknowledged peerId version ∨ Holds ledger.received peerId version ∨
    (unreachable.lookup peerId).isSome

theorem accounts_of_covered {ledger : Ledger} {unreachable : AList fun _ : PeerId => Nat}
    {peerId : PeerId} {version : Nat} (covered : Covered ledger.known unreachable peerId version) :
    Accounts ledger unreachable peerId version := by
  rcases covered with ⟨newer, bound, member⟩ | ⟨newer, _, listed⟩
  · rcases List.mem_append.mp member with acknowledged | received
    · exact .inl ⟨newer, bound, acknowledged⟩
    · exact .inr (.inl ⟨newer, bound, received⟩)
  · exact .inr (.inr (by simp [listed]))

/-- Every entry the early stop skips, other than those of version 0 and of the destination itself,
is accounted for. -/
def NothingLost (config : SyncConfig) (state : SyncState) : Prop :=
  (∀ item ∈ skipped peerStamps state.session.lastSyncSuccTimestamp state.synced.peerInfos,
    item.2.version ≠ 0 → item.1 ≠ config.dstPeerId →
    Accounts state.peerLedger state.session.unreachablePeersForPeerInfo item.1 item.2.version) ∧
  ∀ item ∈ skipped connStamps state.session.lastSyncSuccTimestamp state.synced.connMap,
    item.2.version ≠ 0 → item.1 ≠ config.dstPeerId →
    Accounts state.connLedger state.session.unreachablePeersForConnInfo item.1 item.2.version

theorem Sound.nothingLost (sound : state.Sound config) : state.NothingLost config := by
  constructor
  · intro item member positive away
    have stored := (List.dropWhile_sublist _).subset member
    exact accounts_of_covered (sound.peers.covered item.1 item.2 (AList.mem_lookup_iff.mpr stored)
      positive away (sound.peers.ordered.stops_of_skipped member))
  · intro item member positive away
    have stored := (List.dropWhile_sublist _).subset member
    exact accounts_of_covered (sound.conns.covered item.1 item.2 (AList.mem_lookup_iff.mpr stored)
      positive away (sound.conns.ordered.stops_of_skipped member))

end SyncState

/-- In every run whose rounds and responses are careful, no update is lost in any state. -/
theorem no_update_lost (config : SyncConfig) (state : SyncState)
    (reached : (syncSystem config).ReachableUnder (SyncState.Careful config) state) :
    state.NothingLost config := by
  have sound : state.Sound config := by
    refine reached.invariant ?_ fun before event after sound careful steps =>
      sound.step careful steps
    rintro _ ⟨mySessionId, rfl⟩
    exact .initial mySessionId
  exact sound.nothingLost

/-! ## Careful and careless runs -/

/-- Peer 1 syncs with peer 2, which does not take lists. -/
def pairConfig : SyncConfig where
  myPeerId := 1
  myPeerRouteId := 0
  dstPeerId := 2
  defaultDetails := []
  supportsConnList := fun _ => false

/-- The first sync: the own connections are sent and acknowledged by session 7. -/
def firstSync : List SyncEvent :=
  [.tick 10, .updateTopology [1, 2], .change (.myPeerInfo (.empty [] 0)), .change (.myConnInfo [2]),
    .change .incVersion, .updateCachedLocalConnBitmap, .tick 20, .updateInitiatorFlag true,
    .beginSync true, .response 0 { isInitiator := false, sessionId := 7, error := none }]

/-- The own connections change, and the next round finds the cached bitmap not yet rebuilt. -/
def staleBitmapRun : List SyncEvent :=
  firstSync ++ [.tick 30, .change (.myConnInfo [2, 3]), .tick 40, .beginSync true,
    .response 0 { isInitiator := false, sessionId := 7, error := none }]

/-- The destination's session is made anew, which the sender learns from the answer to a request
that had nothing left to tell. -/
def renewedSessionRun : List SyncEvent :=
  firstSync ++ [.tick 30, .beginSync true,
    .response 0 { isInitiator := false, sessionId := 8, error := none }]

/-- Both runs lose an update, though nothing was ever received from the destination: the new
connections in the first, the peer info in the second. -/
theorem careless_runs_lose_updates :
    (∃ state, (syncSystem pairConfig).Reachable state ∧ state.connLedger.received = [] ∧
      ¬state.NothingLost pairConfig) ∧
    ∃ state, (syncSystem pairConfig).Reachable state ∧ state.peerLedger.received = [] ∧
      ¬state.NothingLost pairConfig := by
  constructor
  · refine System.exists_reachable (.initial 5) staleBitmapRun (fun state =>
      skipped connStamps state.session.lastSyncSuccTimestamp state.synced.connMap =
          [⟨1, { connectedPeers := [2, 3], version := 2, lastUpdate := 30 }⟩] ∧
        state.connLedger = ⟨[(1, 1), (2, 0), (1, 1), (2, 0)], []⟩ ∧
        state.session.unreachablePeersForConnInfo.lookup 1 = none) ⟨5, rfl⟩ (by decide +kernel) ?_
    rintro state _ _ ⟨isSkipped, isLedger, isUnlisted⟩
    refine ⟨by rw [isLedger], fun nothingLost => ?_⟩
    have accounted := nothingLost.2 ⟨1, _⟩ (isSkipped ▸ List.mem_singleton_self _) (by decide)
      (by decide)
    simp [SyncState.Accounts, Holds, isLedger, isUnlisted] at accounted
  · refine System.exists_reachable (.initial 5) renewedSessionRun (fun state =>
      skipped peerStamps state.session.lastSyncSuccTimestamp state.synced.peerInfos =
          [⟨1, { RoutePeerInfo.empty [] 10 with peerId := 1, version := 1 }⟩] ∧
        state.peerLedger = ⟨[], []⟩ ∧
        state.session.unreachablePeersForPeerInfo.lookup 1 = none) ⟨5, rfl⟩ (by decide +kernel) ?_
    rintro state _ _ ⟨isSkipped, isLedger, isUnlisted⟩
    refine ⟨by rw [isLedger], fun nothingLost => ?_⟩
    have accounted := nothingLost.1 ⟨1, _⟩ (isSkipped ▸ List.mem_singleton_self _) (by decide)
      (by decide)
    simp [SyncState.Accounts, Holds, isLedger, isUnlisted] at accounted

/-- With the bitmap rebuilt before the round, the changed connections arrive. -/
theorem careful_run_keeps_update :
    ∃ state, (syncSystem pairConfig).ReachableUnder (SyncState.Careful pairConfig) state ∧
      (skipped connStamps state.session.lastSyncSuccTimestamp
        state.synced.connMap).length = 1 ∧ state.NothingLost pairConfig := by
  exact System.exists_reachableUnder (.initial 5)
    (firstSync ++ [.tick 30, .change (.myConnInfo [2, 3]), .change .incVersion,
      .updateCachedLocalConnBitmap, .tick 40, .beginSync true,
      .response 0 { isInitiator := false, sessionId := 7, error := none }])
    (fun state => (skipped connStamps state.session.lastSyncSuccTimestamp
      state.synced.connMap).length = 1) ⟨5, rfl⟩ (by decide +kernel)
    fun state reached skipped => ⟨skipped, no_update_lost pairConfig state reached⟩

end EasyTier.Route
