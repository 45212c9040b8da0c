import EasyTier.Route.NextHop
import EasyTier.Route.TrustOrigins

/-! # What a credential peer can change

Of a request from a peer that is authenticated by a credential, the info about the peer itself is
taken, marked and cut to the networks of the credential, and its connections if the credential lets
it relay. The refresh that follows reads the key from the info, not from the connection.
-/

namespace EasyTier.Route

open Acl (IpAddr IpCidr)
open Data Semantics

/-! ## The info that is taken -/

/-- The first info of a request about a peer. -/
def RouteSync.infoOf (request : RouteSync) (peerId : PeerId) : Option RoutePeerInfo :=
  request.peerInfos.bind fun (infos, _) => infos.find? (·.peerId = peerId)

variable {info : RoutePeerInfo}

theorem RouteSync.peerId_of_infoOf {request : RouteSync} {peerId : PeerId}
    (found : request.infoOf peerId = some info) : info.peerId = peerId := by
  obtain ⟨⟨infos, _⟩, _, first⟩ := Option.bind_eq_some_iff.mp found
  have named := List.find?_some first
  exact of_decide_eq_true named

namespace TrustConfig

variable {config : TrustConfig} {credential : TrustedCredentialPubkey}

theorem details_restrictInfo (info : RoutePeerInfo) :
    config.details (config.restrictInfo credential info) =
      { config.details info with
        isCredentialPeer := true
        proxyCidrs := (config.details info).proxyCidrs.filter fun cidr =>
          credential.allowedProxyCidrs.any fun allowed => config.cidrIsSubsetStr cidr allowed } :=
  config.layout.read_write _

theorem claimedKey_restrictInfo (info : RoutePeerInfo) :
    config.claimedKey (config.restrictInfo credential info) = config.claimedKey info := by
  unfold claimedKey
  rw [details_restrictInfo]

theorem isCredentialPeerInfo_restrictInfo (info : RoutePeerInfo) :
    config.isCredentialPeerInfo (config.restrictInfo credential info) = true := by
  unfold isCredentialPeerInfo
  rw [details_restrictInfo]

/-- Every address of the first network is one of the second. -/
def Inside (config : TrustConfig) (cidr allowed : String) : Prop :=
  ∃ child parent, config.library.parseCidr cidr = some child ∧
    config.library.parseCidr allowed = some parent ∧
    ∀ address : IpAddr, child.contains address = true → parent.contains address = true

theorem inside_of_cidrIsSubsetStr {cidr allowed : String}
    (subset : config.cidrIsSubsetStr cidr allowed = true) : config.Inside cidr allowed := by
  unfold cidrIsSubsetStr at subset
  split at subset
  · rename_i child parent parsed parsedAllowed
    exact ⟨child, parent, parsed, parsedAllowed, fun _ => contains_of_cidrIsSubset subset⟩
  · cases subset

/-- The networks of the info lie inside those of the credential. -/
theorem inside_restrictInfo {cidr : String}
    (member : cidr ∈ (config.details (config.restrictInfo credential info)).proxyCidrs) :
    ∃ allowed ∈ credential.allowedProxyCidrs, config.Inside cidr allowed := by
  rw [details_restrictInfo] at member
  obtain ⟨_, passes⟩ := List.mem_filter.mp member
  obtain ⟨allowed, listed, subset⟩ := List.any_eq_true.mp passes
  exact ⟨allowed, listed, inside_of_cidrIsSubsetStr subset⟩

theorem extractCredentialPeerInfo_some {sender : PeerId} {infos : List RoutePeerInfo}
    {raws : List Bytes} {raw : Bytes}
    (extracted : config.extractCredentialPeerInfo sender credential infos raws =
      .ok (some (info, raw))) :
    ∃ sent, infos.find? (·.peerId = sender) = some sent ∧
      info = config.restrictInfo credential sent := by
  induction infos generalizing raws with
  | nil => cases extracted
  | cons first infos ih =>
    unfold extractCredentialPeerInfo at extracted
    split at extracted
    · rename_i own
      cases raws with
      | nil => cases extracted
      | cons bytes raws =>
        obtain ⟨patched, _, made⟩ := Option.map_eq_some_iff.mp (Except.ok.inj extracted)
        cases made
        exact ⟨first, List.find?_cons_of_pos (decide_eq_true own), rfl⟩
    · rename_i other
      obtain ⟨sent, found, made⟩ := ih extracted
      refine ⟨sent, ?_, made⟩
      rw [List.find?_cons_of_neg (by simpa using other)]
      exact found

/-- From a credential peer, at most the first info about itself is taken. -/
theorem acceptedInfos_credential {neighbour : Neighbour} {request : RouteSync}
    {infos : List RoutePeerInfo} {raws : List Bytes}
    (accepted : config.acceptedInfos neighbour (some credential) request = .ok (infos, raws)) :
    infos = [] ∨ ∃ sent raw, request.infoOf neighbour.peerId = some sent ∧
      infos = [config.restrictInfo credential sent] ∧ raws = [raw] := by
  unfold acceptedInfos at accepted
  unfold RouteSync.infoOf
  cases offered : request.peerInfos with
  | none =>
    rw [offered] at accepted
    cases accepted
    exact .inl rfl
  | some taken =>
    obtain ⟨shown, bytes⟩ := taken
    rw [offered] at accepted
    dsimp only at accepted
    cases extracted : config.extractCredentialPeerInfo neighbour.peerId credential shown bytes with
    | error error =>
      rw [extracted] at accepted
      cases accepted
    | ok result =>
      rw [extracted] at accepted
      cases result with
      | none =>
        cases accepted
        exact .inl rfl
      | some own =>
        cases accepted
        obtain ⟨sent, found, made⟩ := extractCredentialPeerInfo_some extracted
        exact .inr ⟨sent, own.2, found, by rw [made], rfl⟩

end TrustConfig

open TrustConfig

/-- One info is refused, too old, or stored under its id. -/
theorem updatePeerInfos_one (info : SyncedRouteInfo) (myPeerId myPeerRouteId : Nat)
    (dstPeerId : PeerId) (new : RoutePeerInfo) (raw : Bytes) (now : Nat) :
    (∃ error, info.updatePeerInfos myPeerId myPeerRouteId dstPeerId [new] [raw] now =
      (.error error, info)) ∨
    info.updatePeerInfos myPeerId myPeerRouteId dstPeerId [new] [raw] now = (.ok (), info) ∨
    (∀ old, info.peerInfos.lookup new.peerId = some old → old.version < new.version) ∧
      info.updatePeerInfos myPeerId myPeerRouteId dstPeerId [new] [raw] now =
        (.ok (), { info with
          rawPeerInfos := info.rawPeerInfos.insert new.peerId raw
          peerInfos := info.peerInfos.insert new.peerId { new with lastUpdate := now }
          version := info.version + 1 }) := by
  unfold SyncedRouteInfo.updatePeerInfos SyncedRouteInfo.updatePeerInfosFrom
  dsimp only
  cases info.checkDuplicatePeerId myPeerId myPeerRouteId dstPeerId
    (if new.peerId = dstPeerId then (info.peerInfos.lookup dstPeerId).map (·.peerRouteId) else none)
    new with
  | error error => exact .inl ⟨error, rfl⟩
  | ok _ =>
    by_cases newer : (info.peerInfos.lookup new.peerId).all (·.version < new.version) = true
    · refine .inr (.inr ⟨fun old found => ?_, ?_⟩)
      · rw [found] at newer
        simpa using newer
      · rw [if_pos newer]
        rfl
    · refine .inr (.inl ?_)
      rw [if_neg newer]
      rfl

namespace TrustState

variable {config : TrustConfig} {credential : TrustedCredentialPubkey} {sender : PeerId}
  {request : RouteSync} {now : Nat} {state : TrustState}

/-- What storing the request of a credential peer changes. -/
structure Announces (config : TrustConfig) (sender : PeerId) (credential : TrustedCredentialPubkey)
    (request : RouteSync) (before after : TrustState) : Prop where
  origin : ∀ peerId info, after.synced.peerInfos.lookup peerId = some info →
    before.synced.peerInfos.lookup peerId = some info ∨
    (credential.allowRelay = true ∧ before.synced.peerInfos.lookup peerId = none ∧
      ∃ time, info = .empty config.defaultDetails time) ∨
    peerId = sender ∧ ∃ sent time, request.infoOf sender = some sent ∧
      (∀ old, before.synced.peerInfos.lookup sender = some old → old.version < sent.version) ∧
      info = { config.restrictInfo credential sent with lastUpdate := time }
  keeps : ∀ peerId info, before.synced.peerInfos.lookup peerId = some info →
    ∃ later, after.synced.peerInfos.lookup peerId = some later ∧ (later = info ∨ peerId = sender)
  admins : (∀ old, before.synced.peerInfos.lookup sender = some old →
    config.isAdminPeer old = false) →
      config.adminInfos after.synced = config.adminInfos before.synced
  conns : credential.allowRelay = false → after.synced.connMap = before.synced.connMap
  foreigns : after.synced.foreignNetwork = before.synced.foreignNetwork
  trusted : after.trustedCredentialPubkeys = before.trustedCredentialPubkeys
  suppressed : after.suppressed = before.suppressed
  declarations : after.declarations = before.declarations
  groups : ∀ group, HasGroup after.groupTrustMap sender group →
    HasGroup before.groupTrustMap sender group ∨
      ∃ info, info.peerId = sender ∧ group ∈ config.verifyGroups before.declarations info ∧
        (before.synced.peerInfos.lookup sender = some info ∨ config.isAdminPeer info = false)

theorem Announces.refl (state : TrustState) :
    Announces config sender credential request state state where
  origin _ _ found := .inl found
  keeps _ info found := ⟨info, found, .inl rfl⟩
  admins _ := rfl
  conns _ := rfl
  foreigns := rfl
  trusted := rfl
  suppressed := rfl
  declarations := rfl
  groups _ has := .inl has

/-- The connections of a credential peer that may relay add placeholders. -/
theorem Announces.storeConnInfo {before : TrustState}
    (announces : Announces config sender credential request before state) (changed : Bool) :
    Announces config sender credential request before
      (state.storeConnInfo config (some credential) request now changed).2 := by
  unfold TrustState.storeConnInfo
  split
  · exact announces
  rename_i connInfo _
  by_cases relays : credential.allowRelay = true
  · have fills : SyncedRouteInfo.Fills config.defaultDetails state.synced
        (state.synced.updateConnInfo config.defaultDetails connInfo now).2 :=
      SyncedRouteInfo.fills_of_connWrites
        (state.synced.connWrites_updateConnInfo config.defaultDetails connInfo)
    have filled : ∀ synced, SyncedRouteInfo.Fills config.defaultDetails state.synced synced →
        Announces config sender credential request before { state with synced := synced } := by
      intro synced fills
      refine { announces with origin := ?_, keeps := ?_, admins := ?_, conns := ?_, foreigns := ?_ }
      · intro peerId info found
        rcases fills.origin found with stored | ⟨absent, placeholder⟩
        · exact announces.origin peerId info stored
        · refine .inr (.inl ⟨relays, ?_, placeholder⟩)
          cases old : before.synced.peerInfos.lookup peerId with
          | none => rfl
          | some info =>
            obtain ⟨later, kept, _⟩ := announces.keeps peerId info old
            rw [absent] at kept
            cases kept
      · intro peerId info found
        obtain ⟨later, kept, either⟩ := announces.keeps peerId info found
        exact ⟨later, fills.keeps kept, either⟩
      · exact fun plain => (adminInfos_fills fills).trans (announces.admins plain)
      · intro not
        rw [relays] at not
        cases not
      · exact fills.foreigns.trans announces.foreigns
    rw [if_pos (by simpa using relays)]
    split
    all_goals
      rename_i ended
      rw [ended] at fills
      exact filled _ fills
  · rw [if_neg (by simpa using relays)]
    exact announces

variable {group : String} {neighbour : Neighbour} {peerId : PeerId}

/-- The groups of a peer are those that its stored info proves. -/
theorem hasGroup_verifyAndUpdateCurrent {received : RoutePeerInfo}
    (has : HasGroup (state.verifyAndUpdateCurrentGroupTrusts config
      [received]).groupTrustMap received.peerId group) :
    HasGroup state.groupTrustMap received.peerId group ∨
      ∃ info, state.synced.peerInfos.lookup received.peerId = some info ∧
        info.peerId = received.peerId ∧ group ∈ config.verifyGroups state.declarations info := by
  have one : [received.peerId].dedup = [received.peerId] := (List.nodup_singleton _).dedup
  unfold verifyAndUpdateCurrentGroupTrusts verifyAndUpdateGroupTrusts at has
  cases found : state.synced.peerInfos.lookup received.peerId with
  | none =>
    simp only [List.map_cons, List.map_nil, one, List.filterMap_cons, found, List.filterMap_nil,
      List.foldl_nil] at has
    exact .inl has
  | some info =>
    simp only [List.map_cons, List.map_nil, one, List.filterMap_cons, found, List.filterMap_nil,
      List.foldl_cons, List.foldl_nil] at has
    by_cases own : info.peerId = received.peerId
    · rw [own, hasGroup_setPeerGroups] at has
      exact .inr ⟨info, rfl, own, has⟩
    · exact .inl ((hasGroup_setPeerGroups_ne (Ne.symm own)).mp has)

/-- An info that is too old only has the groups verified again. -/
theorem announces_old {received : RoutePeerInfo} (own : received.peerId = sender) :
    Announces config sender credential request state
      (state.verifyAndUpdateCurrentGroupTrusts config [received]) := by
  refine { Announces.refl state with groups := fun group has => ?_ }
  subst own
  rcases hasGroup_verifyAndUpdateCurrent has with before | ⟨info, found, named, member⟩
  · exact .inl before
  · exact .inr ⟨info, named, member, .inl found⟩

/-- The own info of the sender takes the place of an older one. -/
theorem announces_new {sent : RoutePeerInfo} {raw : Bytes}
    (found : request.infoOf sender = some sent) (own : sent.peerId = sender)
    (newer : ∀ old, state.synced.peerInfos.lookup sender = some old → old.version < sent.version) :
    Announces config sender credential request state
      ({ state with
        synced := { state.synced with
          rawPeerInfos := state.synced.rawPeerInfos.insert sent.peerId raw
          peerInfos := state.synced.peerInfos.insert sent.peerId
            { config.restrictInfo credential sent with lastUpdate := now }
          version := state.synced.version + 1 } }.verifyAndUpdateCurrentGroupTrusts config
        [config.restrictInfo credential sent]) := by
  subst own
  have plain : config.isAdminPeer
      { config.restrictInfo credential sent with lastUpdate := now } = false := by
    have flagged : config.isCredentialPeerInfo
        { config.restrictInfo credential sent with lastUpdate := now } = true :=
      isCredentialPeerInfo_restrictInfo sent
    rw [isAdminPeer, flagged, Bool.not_true, Bool.and_false]
  refine
    { origin := fun peerId info stored => ?_
      keeps := fun peerId info stored => ?_
      admins := fun replaced => adminInfos_insert plain replaced
      conns := fun _ => rfl
      foreigns := rfl
      trusted := rfl
      suppressed := rfl
      declarations := rfl
      groups := fun group has => ?_ }
  · have inserted := (lookup_insert_eq ..).symm.trans stored
    split at inserted
    · rename_i isSender
      exact .inr (.inr ⟨isSender, sent, now, found, newer, (Option.some.inj inserted).symm⟩)
    · exact .inl inserted
  · by_cases isSender : peerId = sent.peerId
    · subst isSender
      exact ⟨_, AList.lookup_insert _, .inr rfl⟩
    · exact ⟨info, (AList.lookup_insert_ne isSender).trans stored, .inl rfl⟩
  · rcases hasGroup_verifyAndUpdateCurrent has with before | ⟨info, stored, named, member⟩
    · exact .inl before
    · cases (AList.lookup_insert _).symm.trans stored
      exact .inr ⟨_, named, member, .inr plain⟩

/-- However its handling ends, the request of a credential peer announces the peer itself. -/
theorem storeRequest_announces : Announces config neighbour.peerId credential request state
      (state.storeRequest config neighbour (some credential) request now).2 := by
  unfold storeRequest
  cases accepted : config.acceptedInfos neighbour (some credential) request with
  | error error => exact .refl state
  | ok taken =>
    obtain ⟨infos, raws⟩ := taken
    rcases acceptedInfos_credential accepted with rfl | ⟨sent, raw, found, rfl, rfl⟩
    · exact (Announces.refl state).storeConnInfo false
    · have own := RouteSync.peerId_of_infoOf found
      rcases updatePeerInfos_one state.synced config.myPeerId config.myPeerRouteId neighbour.peerId
        (config.restrictInfo credential sent) raw now with
        ⟨error, refused⟩ | old | ⟨newer, stored⟩
      · simp only [List.isEmpty_cons, Bool.false_eq_true, if_false, refused]
        exact .refl state
      · simp only [List.isEmpty_cons, Bool.false_eq_true, if_false, old]
        exact (announces_old own).storeConnInfo true
      · simp only [List.isEmpty_cons, Bool.false_eq_true, if_false, stored]
        have named : (config.restrictInfo credential sent).peerId = neighbour.peerId := own
        rw [named] at newer
        exact (announces_new found own newer).storeConnInfo true

/-! ## Confinement -/

/-- The route table reaches the peer with a request and does not reach it without. -/
def Brought (active without : PeerId → Bool) (peerId : PeerId) : Prop :=
  active peerId = true ∧ without peerId = false

/-- What the request of a credential peer may change. `plain` is what a refresh at the same time
makes of the state without the request, and `brought` are the peers the request brings into
reach. -/
structure Confined (config : TrustConfig) (sender : PeerId) (key : Bytes)
    (credential : TrustedCredentialPubkey) (brought : PeerId → Prop)
    (before plain after : TrustState) : Prop where
  /-- The infos of other peers stay; placeholders come with connections. -/
  others : ∀ peerId, peerId ≠ sender →
    after.synced.peerInfos.lookup peerId = before.synced.peerInfos.lookup peerId ∨
    (after.synced.peerInfos.lookup peerId = none ∧ plain.synced.peerInfos.lookup peerId = none) ∨
    (credential.allowRelay = true ∧ before.synced.peerInfos.lookup peerId = none ∧
      ∃ time, after.synced.peerInfos.lookup peerId = some (.empty config.defaultDetails time))
  /-- Another peer is suppressed only if its key is for one peer, and is the sender's or is used by
  a peer that has come into reach. -/
  suppressed : ∀ peerId, peerId ≠ sender → peerId ∈ after.suppressed →
    peerId ∈ before.suppressed ∨ peerId ∈ plain.suppressed ∨
    ∃ info current, before.synced.peerInfos.lookup peerId = some info ∧
      after.trustedCredentialPubkeys.lookup (config.claimedKey info) = some current ∧
      current.isReusable = false ∧
      (config.claimedKey info = key ∨ ∃ carrier carried, brought carrier ∧
        before.synced.peerInfos.lookup carrier = some carried ∧
        config.claimedKey carried = config.claimedKey info)
  /-- A new info of the sender is marked, and its networks lie inside those of the credential. -/
  own : ∀ info, after.synced.peerInfos.lookup sender = some info →
    before.synced.peerInfos.lookup sender = some info ∨
    (credential.allowRelay = true ∧ before.synced.peerInfos.lookup sender = none ∧
      ∃ time, info = .empty config.defaultDetails time) ∨
    config.isCredentialPeerInfo info = true ∧
      ∀ cidr ∈ (config.details info).proxyCidrs, ∃ allowed ∈ credential.allowedProxyCidrs,
        config.Inside cidr allowed
  trusted : ∀ trustedKey ∈ after.trustedCredentialPubkeys,
    trustedKey ∈ before.trustedCredentialPubkeys ∨ trustedKey ∈ plain.trustedCredentialPubkeys
  foreigns : ∀ network entry, after.synced.foreignNetwork.lookup network = some entry →
    before.synced.foreignNetwork.lookup network = some entry
  /-- A row goes only with its peer. -/
  conns : credential.allowRelay = false → ∀ peerId,
    after.synced.connMap.lookup peerId = before.synced.connMap.lookup peerId ∨
    (after.synced.connMap.lookup peerId = none ∧ after.synced.peerInfos.lookup peerId = none)
  groups : ∀ group, HasGroup after.groupTrustMap sender group →
    config.Proven before.declarations sender group ∨
    (∃ current, after.trustedCredentialPubkeys.lookup key = some current ∧
      group ∈ current.groups) ∨
    HasGroup before.groupTrustMap sender group ∨ HasGroup plain.groupTrustMap sender group

theorem Confined.refl {key : Bytes} {brought : PeerId → Prop} {plain : TrustState}
    (state : TrustState) : Confined config sender key credential brought state plain state where
  others _ _ := .inl rfl
  suppressed _ _ member := .inl member
  own _ found := .inl found
  trusted _ member := .inl member
  foreigns _ _ found := found
  conns _ _ := .inl rfl
  groups _ has := .inr (.inr (.inl has))

/-- The sender has not the id of an admin, and its own info, if it is newer than what is stored,
claims the key or one that no admin publishes. -/
structure Genuine (config : TrustConfig) (sender : PeerId) (key : Bytes) (request : RouteSync)
    (now : Nat) (state : TrustState) : Prop where
  notAdmin : ∀ old, state.synced.peerInfos.lookup sender = some old → config.isAdminPeer old = false
  claims : ∀ sent, request.infoOf sender = some sent →
    (∀ old, state.synced.peerInfos.lookup sender = some old → old.version < sent.version) →
    config.claimedKey sent = key ∨ config.claimedKey sent ∉ state.trustedAt config now

variable {stored : TrustState} {key : Bytes} {active without : PeerId → Bool}

section

variable (announces : Announces config sender credential request state stored)
include announces

theorem Announces.lookup_other (other : peerId ≠ sender) :
    stored.synced.peerInfos.lookup peerId = state.synced.peerInfos.lookup peerId ∨
      (credential.allowRelay = true ∧ state.synced.peerInfos.lookup peerId = none ∧
        ∃ time, stored.synced.peerInfos.lookup peerId =
          some (.empty config.defaultDetails time)) := by
  cases found : stored.synced.peerInfos.lookup peerId with
  | some info =>
    rcases announces.origin peerId info found with
      same | ⟨relays, absent, time, rfl⟩ | ⟨own, _⟩
    · exact .inl same.symm
    · exact .inr ⟨relays, absent, time, rfl⟩
    · exact absurd own other
  | none =>
    cases old : state.synced.peerInfos.lookup peerId with
    | none => exact .inl rfl
    | some info =>
      obtain ⟨later, kept, _⟩ := announces.keeps peerId info old
      rw [found] at kept
      cases kept

/-- An info of another peer that claims a key was there before the request. -/
theorem Announces.claims_other (other : peerId ≠ sender)
    (found : stored.synced.peerInfos.lookup peerId = some info)
    (claims : config.claimedKey info ≠ []) :
    state.synced.peerInfos.lookup peerId = some info := by
  rcases announces.origin peerId info found with same | ⟨_, _, time, rfl⟩ | ⟨own, _⟩
  · exact same
  · exact absurd (claimedKey_placeholder config time) claims
  · exact absurd own other

theorem Announces.own (found : stored.synced.peerInfos.lookup sender = some info) :
    state.synced.peerInfos.lookup sender = some info ∨
      (credential.allowRelay = true ∧ state.synced.peerInfos.lookup sender = none ∧
        ∃ time, info = .empty config.defaultDetails time) ∨
      config.isCredentialPeerInfo info = true ∧
        ∀ cidr ∈ (config.details info).proxyCidrs, ∃ allowed ∈ credential.allowedProxyCidrs,
          config.Inside cidr allowed := by
  rcases announces.origin sender info found with
    same | placeholder | ⟨_, sent, time, _, _, rfl⟩
  · exact .inl same
  · exact .inr (.inl placeholder)
  · exact .inr (.inr ⟨isCredentialPeerInfo_restrictInfo sent,
      fun cidr member => inside_restrictInfo member⟩)

/-- The sender's info claims a trusted key only if it was there before, or if it is the sender's. -/
theorem Announces.claims_own (genuine : state.Genuine config sender key request now)
    (found : stored.synced.peerInfos.lookup sender = some info)
    (claims : config.claimedKey info ≠ [])
    (published : config.claimedKey info ∈ state.trustedAt config now) :
    state.synced.peerInfos.lookup sender = some info ∨ config.claimedKey info = key := by
  rcases announces.origin sender info found with
    same | ⟨_, _, time, rfl⟩ | ⟨_, sent, time, shown, newer, rfl⟩
  · exact .inl same
  · exact absurd (claimedKey_placeholder config time) claims
  · have same : config.claimedKey { config.restrictInfo credential sent with lastUpdate := time } =
        config.claimedKey sent := claimedKey_restrictInfo sent
    rw [same] at published ⊢
    rcases genuine.claims sent shown newer with isKey | unpublished
    · exact .inr isKey
    · exact absurd published unpublished

omit announces in
theorem isCandidate_claims {trusted : AList fun _ : Bytes => TrustedCredentialPubkey}
    (candidate : config.isCandidate trusted active peerId info = true) :
    config.claimedKey info ≠ [] ∧ ∃ current,
      trusted.lookup (config.claimedKey info) = some current ∧ current.isReusable = false := by
  unfold isCandidate at candidate
  simp only [Bool.and_eq_true, Bool.not_eq_true', List.isEmpty_eq_false_iff] at candidate
  obtain ⟨current, found, single⟩ := (Option.any_eq_true _ _).mp candidate.1.2
  exact ⟨candidate.1.1, current, found, by simpa using single⟩

omit announces in
/-- A candidate of the refresh with the request is one without it, or has come into reach. -/
theorem isCandidate_without {trusted : AList fun _ : Bytes => TrustedCredentialPubkey}
    (candidate : config.isCandidate trusted
      (fun peerId => peerId == config.myPeerId || active peerId) peerId info = true) :
    config.isCandidate trusted (fun peerId => peerId == config.myPeerId || without peerId) peerId
      info = true ∨ Brought active without peerId := by
  unfold isCandidate Brought at *
  cases own : peerId == config.myPeerId <;> cases still : without peerId <;> simp_all

section

variable (same : stored.trustedAt config now = state.trustedAt config now)
include same

/-- A peer becomes a duplicate only of the sender, and only by the sender's key, or of a peer that
has come into reach, or by coming into reach itself. -/
theorem Announces.suppressed_other
    (genuine : state.Genuine config sender key request now) (other : peerId ≠ sender)
    (member : peerId ∈ stored.suppressedAt config now active) :
    peerId ∈ state.suppressedAt config now without ∨
      ∃ info current, state.synced.peerInfos.lookup peerId = some info ∧
        (state.trustedAt config now).lookup (config.claimedKey info) = some current ∧
        current.isReusable = false ∧
        (config.claimedKey info = key ∨ ∃ carrier carried, Brought active without carrier ∧
          state.synced.peerInfos.lookup carrier = some carried ∧
          config.claimedKey carried = config.claimedKey info) := by
  obtain ⟨notMe, duplicate⟩ := mem_suppressedAt.mp member
  unfold ownersAt at duplicate
  rw [same, mem_duplicates] at duplicate
  obtain ⟨shared, ⟨info, found, candidate, claims⟩, lesser, less, rival, rivalFound, rivalCandidate,
    rivalClaims⟩ := duplicate
  obtain ⟨nonempty, current, trusted, single⟩ := isCandidate_claims candidate
  have stays := announces.claims_other other found nonempty
  -- The rival was there before the request, or is the sender with its own key.
  have rivalStays : state.synced.peerInfos.lookup lesser = some rival ∨
      config.claimedKey rival = key := by
    obtain ⟨rivalNonempty, _, rivalTrusted, _⟩ := isCandidate_claims rivalCandidate
    by_cases isSender : lesser = sender
    · subst isSender
      exact announces.claims_own genuine rivalFound rivalNonempty
        (AList.lookup_isSome.mp (by rw [rivalTrusted]; rfl))
    · exact .inl (announces.claims_other isSender rivalFound rivalNonempty)
  rcases rivalStays with before | isKey
  · rcases isCandidate_without candidate with candidate | brought
    · rcases isCandidate_without rivalCandidate with rivalCandidate | brought
      · refine .inl (mem_suppressedAt.mpr ⟨notMe, ?_⟩)
        exact mem_duplicates.mpr ⟨shared, ⟨info, stays, candidate, claims⟩, lesser, less,
          rival, before, rivalCandidate, rivalClaims⟩
      · exact .inr ⟨info, current, stays, trusted, single,
          .inr ⟨lesser, rival, brought, before, rivalClaims.trans claims.symm⟩⟩
    · exact .inr ⟨info, current, stays, trusted, single, .inr ⟨peerId, info, brought, stays, rfl⟩⟩
  · have isShared := rivalClaims.symm.trans isKey
    exact .inr ⟨info, current, stays, trusted, single, .inl (claims.trans isShared)⟩

/-- Another peer that the refresh removes is removed without the request too. -/
theorem Announces.untrusted_other
    (other : peerId ≠ sender) (member : peerId ∈ stored.untrustedAt config now) :
    peerId ∈ state.untrustedAt config now := by
  obtain ⟨notMe, info, found, nonempty, described, previous, untrusted⟩ := mem_untrustedAt.mp member
  rw [announces.trusted] at previous
  rw [same] at untrusted
  exact mem_untrustedAt.mpr ⟨notMe, info, announces.claims_other other found nonempty, nonempty,
    described, previous, untrusted⟩

end

theorem Announces.infosNamed (named : state.InfosNamed config) : stored.InfosNamed config := by
  intro peerId info found claims
  rcases announces.origin peerId info found with
    same | ⟨_, _, time, rfl⟩ | ⟨rfl, sent, time, shown, _, rfl⟩
  · exact named peerId info same claims
  · exact absurd (claimedKey_placeholder config time) claims
  · have own : sent.peerId = peerId := RouteSync.peerId_of_infoOf shown
    exact own

omit announces in
/-- What the credential of the stored info grants, a refresh grants. -/
theorem hasGroup_refresh (named : state.InfosNamed config)
    (found : state.synced.peerInfos.lookup sender = some info)
    (grants : config.Grants (state.trustedAt config now) info group) :
    HasGroup (state.refreshCredentialTrusts config now active).groupTrustMap sender group := by
  have stays : sender ∉ state.untrustedAt config now := by
    intro member
    obtain ⟨_, removed, foundRemoved, _, _, _, untrusted⟩ := mem_untrustedAt.mp member
    obtain rfl : info = removed := Option.some.inj (found.symm.trans foundRemoved)
    obtain ⟨_, current, trusted, _⟩ := grants
    exact untrusted (AList.lookup_isSome.mp (by rw [trusted]; rfl))
  unfold HasGroup
  rw [(refresh_removes state now active).groupTrustMap, if_neg stays]
  refine hasGroup_rounds_of_grants
    (.inr ⟨info, mem_storedInfos.mpr ⟨sender, found⟩, named sender info found grants.1, grants⟩) ?_
  rintro other member rfl claims
  have foundOther := named.lookup member claims
  obtain rfl : info = other := Option.some.inj (found.symm.trans foundOther)
  exact grants

section

variable (notAdmin : ∀ old, state.synced.peerInfos.lookup sender = some old →
  config.isAdminPeer old = false)
include notAdmin

/-- The groups of the sender before the refresh. -/
theorem Announces.groups_stored
    (has : HasGroup stored.groupTrustMap sender group) :
    config.Proven state.declarations sender group ∨ HasGroup state.groupTrustMap sender group := by
  rcases announces.groups group has with before | ⟨info, rfl, member, either⟩
  · exact .inr before
  · refine .inl (proven_of_mem_verifyGroups ?_ member)
    rcases either with found | plain
    · exact notAdmin info found
    · exact plain

omit notAdmin in
/-- The groups of the sender after the refresh. -/
theorem Announces.groups_refresh
    (named : state.InfosNamed config)
    (same : stored.trustedAt config now = state.trustedAt config now)
    (genuine : state.Genuine config sender key request now)
    (has : HasGroup (stored.refreshCredentialTrusts config now active).groupTrustMap sender group) :
    config.Proven state.declarations sender group ∨
      (∃ current, (state.trustedAt config now).lookup key = some current ∧
        group ∈ current.groups) ∨
      HasGroup state.groupTrustMap sender group ∨
      HasGroup (state.refreshCredentialTrusts config now without).groupTrustMap sender group := by
  have granted : HasGroup ((storedInfos stored.synced).foldl
      (grantCredentialGroups config (state.trustedAt config now)) stored.groupTrustMap) sender
      group := by
    obtain ⟨groups, found, member⟩ := has
    rw [(refresh_removes stored now active).groupTrustMap, same] at found
    split at found
    · cases found
    exact ⟨groups, found, member⟩
  rcases hasGroup_rounds granted with earlier | ⟨info, member, own, grants⟩
  · rcases announces.groups_stored genuine.notAdmin earlier with proven | before
    · exact .inl proven
    · exact .inr (.inr (.inl before))
  · have found := (announces.infosNamed named).lookup member grants.1
    rw [own] at found
    obtain ⟨nonempty, current, trusted, isMember⟩ := grants
    have published : config.claimedKey info ∈ state.trustedAt config now :=
      AList.lookup_isSome.mp (by rw [trusted]; rfl)
    rcases announces.claims_own genuine found nonempty published with before | isKey
    · refine .inr (.inr (.inr ?_))
      exact hasGroup_refresh named before ⟨nonempty, current, trusted, isMember⟩
    · rw [isKey] at trusted
      exact .inr (.inl ⟨current, trusted, isMember⟩)

/-- Without a refresh, the request stays confined. -/
theorem Announces.confined (brought : PeerId → Prop) (plain : TrustState) :
    Confined config sender key credential brought state plain stored where
  others peerId other := by
    rcases announces.lookup_other other with same | placeholder
    · exact .inl same
    · exact .inr (.inr placeholder)
  suppressed peerId _ member := by
    rw [announces.suppressed] at member
    exact .inl member
  own info found := announces.own found
  trusted trustedKey member := by
    rw [announces.trusted] at member
    exact .inl member
  foreigns network entry found := by
    rw [announces.foreigns] at found
    exact found
  conns noRelay peerId := .inl (by rw [announces.conns noRelay])
  groups group has := by
    rcases announces.groups_stored notAdmin has with proven | before
    · exact .inl proven
    · exact .inr (.inr (.inl before))

end

/-- Nor does the refresh after it get out. -/
theorem Announces.confined_refresh
    (named : state.InfosNamed config) (genuine : state.Genuine config sender key request now) :
    Confined config sender key credential (Brought active without) state
      (state.refreshCredentialTrusts config now without)
      (stored.refreshCredentialTrusts config now active) := by
  have same : stored.trustedAt config now = state.trustedAt config now := by
    unfold trustedAt collectTrustedCredentials
    rw [announces.admins genuine.notAdmin]
  have refreshed : ∀ (state : TrustState) active,
      (state.refreshCredentialTrusts config now active).trustedCredentialPubkeys =
        state.trustedAt config now ∧
      (state.refreshCredentialTrusts config now active).suppressed =
        state.suppressedAt config now active :=
    fun state active => ⟨(refresh_removes state now active).trusted,
      (refresh_removes state now active).suppressed⟩
  refine
    { others := fun peerId other => ?_
      suppressed := fun peerId other member => ?_
      own := fun info found => ?_
      trusted := fun trustedKey member => ?_
      foreigns := fun network entry found => ?_
      conns := fun noRelay peerId => ?_
      groups := fun group has => ?_ }
  · rw [refresh_peerInfos, refresh_peerInfos]
    by_cases removed : peerId ∈ stored.untrustedAt config now
    · rw [if_pos removed, if_pos (announces.untrusted_other same other removed)]
      exact .inr (.inl ⟨rfl, rfl⟩)
    · rw [if_neg removed]
      rcases announces.lookup_other other with same | placeholder
      · exact .inl same
      · exact .inr (.inr placeholder)
  · rw [(refreshed stored active).2] at member
    rw [(refreshed state without).2, (refreshed stored active).1, same]
    rcases announces.suppressed_other same genuine other member with before | shares
    · exact .inr (.inl before)
    · exact .inr (.inr shares)
  · rw [refresh_peerInfos] at found
    split at found
    · cases found
    exact announces.own found
  · rw [(refreshed stored active).1, same] at member
    rw [(refreshed state without).1]
    exact .inr member
  · have kept := (refresh_removes stored now active).foreignNetwork _ _ found
    rw [announces.foreigns] at kept
    exact kept
  · rw [(refresh_removes stored now active).connMap, refresh_peerInfos]
    split
    · exact .inr ⟨rfl, rfl⟩
    · exact .inl (by rw [announces.conns noRelay])
  · rw [(refreshed stored active).1, same]
    exact announces.groups_refresh named same genuine has

end

theorem storeForeignNetwork_credential (authenticated : neighbour.identityType = some .credential) :
    state.storeForeignNetwork neighbour request now = state := by
  unfold storeForeignNetwork
  split
  · rw [if_pos (by rw [Neighbour.isCredential, authenticated]; rfl)]
  · rfl

theorem credentialInfo_eq (authenticated : neighbour.identityType = some .credential)
    (shown : neighbour.publicKey = some key) :
    state.credentialInfo neighbour =
      if key = [] then none else state.trustedCredentialPubkeys.lookup key := by
  unfold credentialInfo
  rw [if_pos (by rw [Neighbour.isCredential, authenticated]; rfl), shown]
  simp only [Option.bind_some, List.isEmpty_iff]

end TrustState

open TrustState

namespace TrustState

/-- The snapshot of what is stored. -/
def routeSnapshot (state : TrustState) : OspfRouteSnapshot where
  peerInfos := state.synced.peerInfos.entries.map fun entry => ⟨entry.1, entry.2⟩
  connMap := state.synced.connMap.entries.map fun entry => ⟨entry.1, entry.2.connectedPeers⟩
  suppressedPeerIds := state.suppressed
  version := state.synced.version

/-- Whether the route table of the sample node, built from what is stored, reaches a peer. -/
def reaches (state : TrustState) (peerId : PeerId) : Bool :=
  (OspfRouteTable.empty.buildFromSnapshot .leastFirst (.search .leastFirst) 1 state.routeSnapshot
    .leastHop fun _ _ => 1).topologyPeerReachable peerId

/-- The node is connected with its neighbours. An admin publishes three credentials, one for peers
that may relay and two for one peer each, and relays the infos of peers that use those two; peer 7
is out of reach. -/
def credentialRun : List TrustEvent :=
  [.updateMyPeerInfo (sampleAdmin 1 1 []) 0, .updateMyConnInfo [2, 5, 6, 8, 9] 0,
    sampleSync 2
      [sampleAdmin 2 1 [{ sampleProof 5#8 [] true with credential := some relaying },
          sampleProof 6#8 [] false, sampleProof 9#8 ["ops"] false],
        sampleCredentialPeer 7 1 9#8, sampleCredentialPeer 8 1 6#8, sampleCredentialPeer 9 1 9#8],
    .refresh 0 (· != 7)]
where
  relaying :=
    { pubkey := [5#8], groups := ["guests"], allowRelay := true, expiryUnix := 1000
      allowedProxyCidrs := ["10.0.0.0/8"], reusable := some true }

def sampleNeighbour (peerId : PeerId) (key : Byte) : Neighbour where
  peerId := peerId
  identityType := some .credential
  publicKey := some [key]

/-- The request of a neighbour with its own info, which claims a key, and its connections. -/
def sampleRequest (peerId : PeerId) (claimed : Byte) (connected : List PeerId) : RouteSync where
  peerInfos := some ([sampleCredentialPeer peerId 2 claimed], [[]])
  connInfo := some (.connPeerList
    [{ peerId := some { peerId := peerId, version := 1 }, connectedPeerIds := connected }])
  foreignNetwork := none

/-- The refresh without a request. -/
def plainSample (state : TrustState) : TrustState :=
  state.refreshCredentialTrusts .sample 0 state.reaches

/-- The state in which a neighbour's request is stored. -/
def storedSample (state : TrustState) (neighbour : Neighbour) (request : RouteSync) : TrustState :=
  (state.storeRequest .sample neighbour (state.credentialInfo neighbour) request 0).2

/-- The state after the request of a neighbour that is authenticated by one key and claims
another. -/
def afterSample (state : TrustState) (peerId : PeerId) (key claimed : Byte)
    (connected : List PeerId) : TrustState :=
  (state.doSyncRouteInfo .sample (sampleNeighbour peerId key) true
    (sampleRequest peerId claimed connected) 0
    (state.storedSample (sampleNeighbour peerId key)
      (sampleRequest peerId claimed connected)).reaches).2

end TrustState

end EasyTier.Route
