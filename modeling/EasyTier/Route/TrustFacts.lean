import EasyTier.Route.Convergence
import EasyTier.Route.Trust

/-! # What a refresh and a request do

One statement for each part: which peers a refresh removes and suppresses, where the groups of a
peer come from, and which infos a request leaves behind.
-/

namespace EasyTier.Route

open Data

/-! ## Stored infos -/

variable {peerId : PeerId} {synced : SyncedRouteInfo} {info : RoutePeerInfo}
  {map : AList fun _ : PeerId => GroupMap} {raws : List Bytes}

theorem mem_entries_reverse {Value : Type} {map : AList fun _ : PeerId => Value} {value : Value} :
    (⟨peerId, value⟩ : Sigma fun _ : PeerId => Value) ∈ map.entries.reverse ↔
      map.lookup peerId = some value := by
  rw [List.mem_reverse, ← AList.mem_lookup_iff, Option.mem_def]

theorem mem_storedInfos :
    info ∈ storedInfos synced ↔ ∃ peerId, synced.peerInfos.lookup peerId = some info := by
  unfold storedInfos
  rw [List.mem_map]
  constructor
  · rintro ⟨⟨peerId, stored⟩, member, rfl⟩
    exact ⟨peerId, mem_entries_reverse.mp member⟩
  · rintro ⟨peerId, stored⟩
    exact ⟨⟨peerId, info⟩, mem_entries_reverse.mpr stored, rfl⟩

theorem incVersion_maps (synced : SyncedRouteInfo) (changed : Bool) :
    (synced.incVersion changed).peerInfos = synced.peerInfos ∧
      (synced.incVersion changed).rawPeerInfos = synced.rawPeerInfos ∧
      (synced.incVersion changed).connMap = synced.connMap ∧
      (synced.incVersion changed).foreignNetwork = synced.foreignNetwork := by
  cases changed <;> exact ⟨rfl, rfl, rfl, rfl⟩

theorem lookup_setPeerGroups {groups : GroupMap} : (setPeerGroups map peerId groups).lookup peerId =
      if groups.entries.isEmpty then none else some groups := by
  unfold setPeerGroups
  split
  · exact AList.lookup_erase peerId map
  · exact AList.lookup_insert map

theorem lookup_setPeerGroups_ne {other : PeerId} {groups : GroupMap} (different : other ≠ peerId) :
    (setPeerGroups map peerId groups).lookup other = map.lookup other := by
  unfold setPeerGroups
  split
  · exact AList.lookup_erase_ne different
  · exact AList.lookup_insert_ne different

/-! ## Candidates and duplicates -/

namespace TrustConfig

variable {config : TrustConfig}
  {trusted : AList fun _ : Bytes => TrustedCredentialPubkey} {active : PeerId → Bool}

/-- The peer is stored as a candidate for a key. -/
def Candidate (config : TrustConfig) (synced : SyncedRouteInfo)
    (trusted : AList fun _ : Bytes => TrustedCredentialPubkey) (active : PeerId → Bool)
    (key : Bytes) (peerId : PeerId) : Prop :=
  ∃ info, synced.peerInfos.lookup peerId = some info ∧
    config.isCandidate trusted active peerId info = true ∧ config.claimedKey info = key

theorem mem_collectCandidates {key : Bytes} :
    (∃ peers, (config.collectCandidates synced trusted active).lookup key = some peers ∧
      peerId ∈ peers) ↔ config.Candidate synced trusted active key peerId := by
  -- Each round adds its own peer to the candidates of the key it claims.
  have looped : ∀ (entries : List (Sigma fun _ : PeerId => RoutePeerInfo))
      (candidates : AList fun _ : Bytes => List PeerId),
      (∃ peers, (entries.foldl (fun candidates entry =>
        if config.isCandidate trusted active entry.1 entry.2 then
          candidates.insert (config.claimedKey entry.2)
            (entry.1 :: (candidates.lookup (config.claimedKey entry.2)).getD [])
        else candidates) candidates).lookup key = some peers ∧ peerId ∈ peers) ↔
      (∃ peers, candidates.lookup key = some peers ∧ peerId ∈ peers) ∨
        ∃ entry ∈ entries, entry.1 = peerId ∧
          config.isCandidate trusted active entry.1 entry.2 = true ∧
          config.claimedKey entry.2 = key := by
    intro entries
    induction entries with
    | nil => simp
    | cons entry entries ih =>
      intro candidates
      rw [List.foldl_cons, ih, List.exists_mem_cons_iff, ← or_assoc]
      refine or_congr_left ?_
      by_cases candidate : config.isCandidate trusted active entry.1 entry.2 = true
      · rw [if_pos candidate]
        by_cases same : key = config.claimedKey entry.2
        · subst same
          cases found : candidates.lookup (config.claimedKey entry.2) with
          | none => simp [candidate, eq_comm]
          | some peers => simp [candidate, or_comm, eq_comm]
        · simp [same, Ne.symm same]
      · simp [candidate]
  unfold collectCandidates
  rw [looped]
  constructor
  · rintro (⟨peers, absent, _⟩ | ⟨⟨_, info⟩, member, rfl, rest⟩)
    · cases absent
    · exact ⟨info, mem_entries_reverse.mp member, rest⟩
  · rintro ⟨info, stored, rest⟩
    exact .inr ⟨⟨_, info⟩, mem_entries_reverse.mpr stored, rfl, rest⟩

/-- A duplicate is a candidate for a key that a lesser peer is a candidate for. -/
theorem mem_duplicates :
    peerId ∈ (config.collectNonReusableCredentialOwners synced trusted active).2 ↔
      ∃ key, config.Candidate synced trusted active key peerId ∧
        ∃ lesser < peerId, config.Candidate synced trusted active key lesser := by
  simp only [collectNonReusableCredentialOwners, List.mem_flatMap]
  constructor
  · rintro ⟨⟨key, peers⟩, stored, member⟩
    have found : (config.collectCandidates synced trusted active).lookup key = some peers :=
      AList.mem_lookup_iff.mpr stored
    split at member
    · cases member
    rename_i owner least
    rw [List.min?_eq_some_iff] at least
    rw [List.mem_filter, decide_eq_true_eq] at member
    refine ⟨key, mem_collectCandidates.mp ⟨peers, found, member.1⟩, owner, ?_,
      mem_collectCandidates.mp ⟨peers, found, least.1⟩⟩
    exact lt_of_le_of_ne (least.2 peerId member.1) (Ne.symm member.2)
  · rintro ⟨key, candidate, lesser, less, other⟩
    obtain ⟨peers, found, member⟩ := mem_collectCandidates.mpr candidate
    obtain ⟨peers', found', lesserMember⟩ := mem_collectCandidates.mpr other
    obtain rfl : peers = peers' := Option.some.inj (found.symm.trans found')
    refine ⟨⟨key, peers⟩, AList.mem_lookup_iff.mp found, ?_⟩
    cases least : peers.min? with
    | none =>
      rw [List.min?_eq_none_iff] at least
      rw [least] at member
      cases member
    | some owner =>
      have bounded := (List.min?_eq_some_iff.mp least).2 lesser lesserMember
      exact List.mem_filter.mpr ⟨member, decide_eq_true (lt_of_le_of_lt bounded less).ne'⟩

end TrustConfig

/-! ## The refresh -/

namespace TrustState

variable {config : TrustConfig} {state : TrustState} {now : Nat} {active : PeerId → Bool}

theorem mem_suppressedAt : peerId ∈ state.suppressedAt config now active ↔
      peerId ≠ config.myPeerId ∧
        peerId ∈ (state.ownersAt config now active).2 := by
  unfold suppressedAt collectPeers
  rw [List.mem_filter, List.mem_insertionSort, List.mem_dedup, decide_eq_true_eq, and_comm]

/-- The removed peers are those that use a key which was trusted and is not any more. -/
theorem mem_untrustedAt : peerId ∈ state.untrustedAt config now ↔
      peerId ≠ config.myPeerId ∧ ∃ info, state.synced.peerInfos.lookup peerId = some info ∧
        config.claimedKey info ≠ [] ∧ info.version ≠ 0 ∧
        config.claimedKey info ∈ state.trustedCredentialPubkeys ∧
        config.claimedKey info ∉ state.trustedAt config now := by
  unfold untrustedAt collectRevokedCredentialPeers
  rw [List.mem_filter, decide_eq_true_eq, and_comm, List.mem_filterMap]
  refine and_congr_right fun _ => ⟨?_, ?_⟩
  · rintro ⟨⟨other, info⟩, stored, taken⟩
    dsimp only at taken
    split at taken
    · rename_i tests
      cases taken
      simp only [Bool.and_eq_true, Bool.not_eq_true', List.isEmpty_eq_false_iff, bne_iff_ne,
        decide_eq_true_eq, decide_eq_false_iff_not] at tests
      exact ⟨info, mem_entries_reverse.mp stored, tests.1.1.1, tests.1.1.2, tests.1.2, tests.2⟩
    · cases taken
  · rintro ⟨info, stored, nonempty, described, previous, untrusted⟩
    refine ⟨⟨peerId, info⟩, mem_entries_reverse.mpr stored, if_pos ?_⟩
    simp only [Bool.and_eq_true, Bool.not_eq_true', List.isEmpty_eq_false_iff, bne_iff_ne,
      decide_eq_true_eq, decide_eq_false_iff_not]
    exact ⟨⟨⟨nonempty, described⟩, previous⟩, untrusted⟩

/-- Some peers are taken out of the tables; the networks of others may go with them. -/
structure Removes (peerIds : List PeerId) (before after : TrustState) : Prop where
  peerInfos : ∀ peerId, after.synced.peerInfos.lookup peerId =
    if peerId ∈ peerIds then none else before.synced.peerInfos.lookup peerId
  connMap : ∀ peerId, after.synced.connMap.lookup peerId =
    if peerId ∈ peerIds then none else before.synced.connMap.lookup peerId
  groupTrustMap : ∀ peerId, after.groupTrustMap.lookup peerId =
    if peerId ∈ peerIds then none else before.groupTrustMap.lookup peerId
  foreignNetwork : ∀ key entry, after.synced.foreignNetwork.lookup key = some entry →
    before.synced.foreignNetwork.lookup key = some entry
  trusted : after.trustedCredentialPubkeys = before.trustedCredentialPubkeys
  suppressed : after.suppressed = before.suppressed

theorem removes_removePeers (state : TrustState) (peerIds : List PeerId) :
    Removes peerIds state (state.removePeers peerIds) := by
  cases peerIds with
  | nil => exact ⟨fun _ => rfl, fun _ => rfl, fun _ => rfl, fun _ _ => id, rfl, rfl⟩
  | cons first others =>
    have erased : ∀ {Value : Type} (map : AList fun _ : PeerId => Value) peerId,
        (eraseAll map (first :: others)).lookup peerId =
          if peerId ∈ first :: others then none else map.lookup peerId :=
      fun map peerId => SyncedRouteInfo.lookup_eraseAll _ _ _
    exact ⟨erased _, erased _, erased _, fun _ _ found => (lookup_retain_iff.mp found).1, rfl, rfl⟩

/-- A refresh grants groups, and removes the peers whose key is not trusted any more. -/
theorem refresh_removes (state : TrustState) (now : Nat) (active : PeerId → Bool) :
    Removes (state.untrustedAt config now)
      { state with
        groupTrustMap := (storedInfos state.synced).foldl
          (grantCredentialGroups config (state.trustedAt config now)) state.groupTrustMap
        trustedCredentialPubkeys := state.trustedAt config now
        suppressed := state.suppressedAt config now active }
      (state.refreshCredentialTrusts config now active) := by
  obtain ⟨infos, conns, groups, foreigns, trusted, suppressed⟩ :=
    removes_removePeers _ (state.untrustedAt config now)
  obtain ⟨sameInfos, _, sameConns, sameForeigns⟩ :=
    incVersion_maps state.synced (state.suppressed != state.suppressedAt config now active)
  refine ⟨fun peerId => ?_, fun peerId => ?_, groups, fun key entry found => ?_, trusted,
    suppressed⟩
  · exact (infos peerId).trans (by rw [sameInfos])
  · exact (conns peerId).trans (by rw [sameConns])
  · rw [← sameForeigns]
    exact foreigns key entry found

theorem refresh_peerInfos (state : TrustState) (now : Nat) (active : PeerId → Bool)
    (peerId : PeerId) :
    (state.refreshCredentialTrusts config now active).synced.peerInfos.lookup peerId =
      if peerId ∈ state.untrustedAt config now then none
      else state.synced.peerInfos.lookup peerId :=
  (refresh_removes state now active).peerInfos peerId

end TrustState

/-! ## What requests leave in the database -/

namespace SyncedRouteInfo

/-- The database got placeholders for peers it had no info of. -/
structure Fills (details : Bytes) (before after : SyncedRouteInfo) : Prop where
  infos : ∃ fresh, after.peerInfos.entries = fresh ++ before.peerInfos.entries ∧
    ∀ entry ∈ fresh, ∃ now, entry.2 = RoutePeerInfo.empty details now
  raws : after.rawPeerInfos = before.rawPeerInfos
  foreigns : after.foreignNetwork = before.foreignNetwork

variable {details : Bytes} {before middle after : SyncedRouteInfo} {now : Nat}

theorem Fills.refl (info : SyncedRouteInfo) : Fills details info info :=
  ⟨⟨[], rfl, nofun⟩, rfl, rfl⟩

theorem Fills.trans (first : Fills details before middle) (second : Fills details middle after) :
    Fills details before after := by
  obtain ⟨⟨fresh, added, empties⟩, raws, foreigns⟩ := first
  obtain ⟨⟨later, added', empties'⟩, raws', foreigns'⟩ := second
  refine ⟨⟨later ++ fresh, ?_, fun entry member => ?_⟩, raws'.trans raws, foreigns'.trans foreigns⟩
  · rw [added', added, List.append_assoc]
  · rcases List.mem_append.mp member with new | old
    · exact empties' entry new
    · exact empties entry old

theorem Fills.of_same (peers : after.peerInfos = before.peerInfos)
    (raws : after.rawPeerInfos = before.rawPeerInfos)
    (foreigns : after.foreignNetwork = before.foreignNetwork) : Fills details before after :=
  ⟨⟨[], by rw [peers]; rfl, nofun⟩, raws, foreigns⟩

theorem Fills.incVersion (info : SyncedRouteInfo) (changed : Bool) :
    Fills details info (info.incVersion changed) := by
  obtain ⟨peers, raws, _, foreigns⟩ := incVersion_maps info changed
  exact .of_same peers raws foreigns

/-- An info that was there stays. -/
theorem Fills.keeps (fills : Fills details before after)
    (found : before.peerInfos.lookup peerId = some info) :
    after.peerInfos.lookup peerId = some info := by
  obtain ⟨fresh, added, _⟩ := fills.infos
  refine AList.mem_lookup_iff.mpr ?_
  rw [added]
  exact List.mem_append_right _ (AList.mem_lookup_iff.mp found)

theorem Fills.origin (fills : Fills details before after)
    (found : after.peerInfos.lookup peerId = some info) :
    before.peerInfos.lookup peerId = some info ∨
      before.peerInfos.lookup peerId = none ∧ ∃ now, info = RoutePeerInfo.empty details now := by
  cases old : before.peerInfos.lookup peerId with
  | some stored => exact .inl (by rw [← found, fills.keeps old])
  | none =>
    obtain ⟨fresh, added, empties⟩ := fills.infos
    have member := AList.mem_lookup_iff.mp found
    rw [added] at member
    rcases List.mem_append.mp member with new | stored
    · exact .inr ⟨rfl, empties _ new⟩
    · rw [← AList.mem_lookup_iff, old] at stored
      cases stored

/-- Connections change the infos only by placeholders, also if their handling ends early. -/
theorem fills_of_connWrites (writes : ConnWrites details now before after) :
    Fills details before after := by
  induction writes with
  | refl => exact .refl before
  | tail _ write ih =>
    refine ih.trans ?_
    cases write with
    | incVersion changed => exact .incVersion _ changed
    | fill absent =>
      refine ⟨⟨[_], AList.entries_insert_of_notMem absent, fun entry member => ?_⟩, rfl, rfl⟩
      rw [List.mem_singleton.mp member]
      exact ⟨now, rfl⟩
    | conn peerId current => exact .of_same rfl rfl rfl

/-- The database took some of the offered infos, each newer than what was there. -/
structure Offers (infos : List RoutePeerInfo) (before after : SyncedRouteInfo) : Prop where
  origin : ∀ peerId, after.peerInfos.lookup peerId = before.peerInfos.lookup peerId ∨
    ∃ offered ∈ infos, ∃ now, offered.peerId = peerId ∧
      after.peerInfos.lookup peerId = some { offered with lastUpdate := now } ∧
      ∀ old, before.peerInfos.lookup peerId = some old → old.version < offered.version
  conns : after.connMap = before.connMap
  foreigns : after.foreignNetwork = before.foreignNetwork

theorem Offers.trans {infos : List RoutePeerInfo} (first : Offers infos before middle)
    (second : Offers infos middle after) : Offers infos before after where
  origin peerId := by
    rcases second.origin peerId with same | ⟨offered, member, time, named, stored, beats⟩
    · rw [same]
      exact first.origin peerId
    · refine .inr ⟨offered, member, time, named, stored, fun old found => ?_⟩
      rcases first.origin peerId with same | ⟨earlier, _, _, _, between, beaten⟩
      · exact beats old (same.trans found)
      · have later := beats _ between
        exact (beaten old found).trans later
  conns := second.conns.trans first.conns
  foreigns := second.foreigns.trans first.foreigns

theorem offers_of_peerWrites {infos : List RoutePeerInfo}
    (writes : PeerWrites now (infos.zip raws) before after) : Offers infos before after := by
  induction writes with
  | refl => exact ⟨fun _ => .inl rfl, rfl, rfl⟩
  | @tail middle _ _ write ih =>
    refine ih.trans ?_
    cases write with
    | incVersion changed =>
      obtain ⟨peers, _, conns, foreigns⟩ := incVersion_maps middle changed
      exact ⟨fun peerId => .inl (by rw [peers]), conns, foreigns⟩
    | @store new raw member newer =>
      refine ⟨fun peerId => ?_, rfl, rfl⟩
      rw [lookup_insert_eq]
      split
      · rename_i isNew
        subst isNew
        refine .inr ⟨new, (List.of_mem_zip member).1, now, rfl, rfl, fun old found => ?_⟩
        rw [found] at newer
        simpa using newer
      · exact .inl rfl

/-- Only the own info is written. -/
theorem updateMyPeerInfo_cases (info : SyncedRouteInfo) (myPeerId : PeerId) (new : RoutePeerInfo)
    (now : Nat) :
    (info.updateMyPeerInfo myPeerId new now).1 = info ∨
      ∃ version, (info.updateMyPeerInfo myPeerId new now).1 =
        { info with
          peerInfos := info.peerInfos.insert myPeerId
            { new with version := version, lastUpdate := now }
          version := info.version + 1 } := by
  unfold updateMyPeerInfo
  dsimp only
  cases info.peerInfos.lookup myPeerId with
  | none => exact .inr ⟨_, rfl⟩
  | some old =>
    obtain ⟨version, lastUpdate, content⟩ : ∃ version lastUpdate,
        (tryUpdateNewPeerInfo old new now).2 =
          { new with version := version, lastUpdate := lastUpdate } := by
      unfold tryUpdateNewPeerInfo
      dsimp only
      split <;> split <;> exact ⟨_, _, rfl⟩
    cases (tryUpdateNewPeerInfo old new now).1 with
    | true => exact .inr ⟨old.version + 1, by simp [content]⟩
    | false => exact .inl (by simp)

end SyncedRouteInfo

open SyncedRouteInfo

namespace TrustState

variable {config : TrustConfig} {state : TrustState} {neighbour : Neighbour}
  {credential : Option TrustedCredentialPubkey} {request : RouteSync} {now : Nat}

/-- What storing the infos of a request changes. -/
structure Stores (config : TrustConfig) (infos : List RoutePeerInfo) (before after : TrustState) :
    Prop where
  origin : ∀ peerId info, after.synced.peerInfos.lookup peerId = some info →
    before.synced.peerInfos.lookup peerId = some info ∨
    (before.synced.peerInfos.lookup peerId = none ∧
      ∃ now, info = RoutePeerInfo.empty config.defaultDetails now) ∨
    ∃ offered ∈ infos, ∃ now, offered.peerId = peerId ∧ info = { offered with lastUpdate := now } ∧
      ∀ old, before.synced.peerInfos.lookup peerId = some old → old.version < offered.version
  keeps : ∀ peerId info, before.synced.peerInfos.lookup peerId = some info →
    ∃ later, after.synced.peerInfos.lookup peerId = some later ∧
      (later = info ∨ ∃ offered ∈ infos, offered.peerId = peerId)
  foreigns : after.synced.foreignNetwork = before.synced.foreignNetwork
  trusted : after.trustedCredentialPubkeys = before.trustedCredentialPubkeys
  suppressed : after.suppressed = before.suppressed
  declarations : after.declarations = before.declarations

variable {infos : List RoutePeerInfo}

theorem Stores.of_offers (offers : SyncedRouteInfo.Offers infos state.synced synced)
    (groupTrustMap : AList fun _ : PeerId => GroupMap) :
    Stores config infos state { state with synced := synced, groupTrustMap := groupTrustMap } where
  origin peerId info found := by
    rcases offers.origin peerId with same | ⟨offered, member, time, named, stored, beats⟩
    · exact .inl (same.symm.trans found)
    · exact .inr (.inr ⟨offered, member, time, named,
        Option.some.inj (found.symm.trans stored), beats⟩)
  keeps peerId info found := by
    rcases offers.origin peerId with same | ⟨offered, member, _, named, stored, _⟩
    · exact ⟨info, same.trans found, .inl rfl⟩
    · exact ⟨_, stored, .inr ⟨offered, member, named⟩⟩
  foreigns := offers.foreigns
  trusted := rfl
  suppressed := rfl
  declarations := rfl

theorem Stores.fill {before after : TrustState}
    (stores : Stores config infos before after)
    (fills : SyncedRouteInfo.Fills config.defaultDetails after.synced synced) :
    Stores config infos before { after with synced := synced } where
  origin peerId info found := by
    rcases fills.origin found with stored | ⟨absent, placeholder⟩
    · exact stores.origin peerId info stored
    · refine .inr (.inl ⟨?_, placeholder⟩)
      cases old : before.synced.peerInfos.lookup peerId with
      | none => rfl
      | some info =>
        obtain ⟨later, kept, _⟩ := stores.keeps peerId info old
        rw [absent] at kept
        cases kept
  keeps peerId info found := by
    obtain ⟨later, kept, either⟩ := stores.keeps peerId info found
    exact ⟨later, fills.keeps kept, either⟩
  foreigns := fills.foreigns.trans stores.foreigns
  trusted := stores.trusted
  suppressed := stores.suppressed
  declarations := stores.declarations

theorem Stores.refl (infos : List RoutePeerInfo) (state : TrustState) :
    Stores config infos state state where
  origin _ _ found := .inl found
  keeps _ info found := ⟨info, found, .inl rfl⟩
  foreigns := rfl
  trusted := rfl
  suppressed := rfl
  declarations := rfl

theorem Stores.storeConnInfo {before : TrustState}
    (stores : Stores config infos before state) (changed : Bool) :
    Stores config infos before (state.storeConnInfo config credential request now changed).2 := by
  unfold TrustState.storeConnInfo
  split
  · exact stores
  rename_i connInfo _
  have fills : SyncedRouteInfo.Fills config.defaultDetails state.synced
      (state.synced.updateConnInfo config.defaultDetails connInfo now).2 :=
    fills_of_connWrites
      (state.synced.connWrites_updateConnInfo config.defaultDetails connInfo)
  split
  · split
    all_goals
      rename_i ended
      rw [ended] at fills
      exact stores.fill fills
  · exact stores

section

variable (accepted : config.acceptedInfos neighbour credential request = .ok (infos, raws))
include accepted

/-- A request stores the infos that are accepted from its sender, also if its handling ends
early. -/
theorem storeRequest_stores :
    Stores config infos state (state.storeRequest config neighbour credential request now).2 := by
  have offers := offers_of_peerWrites (state.synced.peerWrites_updatePeerInfos
    config.myPeerId config.myPeerRouteId neighbour.peerId infos raws now)
  unfold storeRequest
  rw [accepted]
  dsimp only
  split
  · exact (Stores.refl infos state).storeConnInfo false
  split
  · rename_i ended
    rw [ended] at offers
    exact Stores.of_offers offers state.groupTrustMap
  · rename_i ended
    rw [ended] at offers
    exact (Stores.of_offers offers _).storeConnInfo true

omit accepted in
/-- However the storing of a request ends: refused as a whole, or with the accepted infos stored. -/
theorem storeRequest_ended {result : Except RouteError Bool} {stored : TrustState}
    (ended : state.storeRequest config neighbour credential request now = (result, stored)) :
    (∃ error, result = .error error ∧ stored = state) ∨
      ∃ infos raws, config.acceptedInfos neighbour credential request = .ok (infos, raws) ∧
        Stores config infos state stored := by
  cases accepted : config.acceptedInfos neighbour credential request with
  | error error =>
    rw [storeRequest, accepted] at ended
    cases ended
    exact .inl ⟨error, rfl, rfl⟩
  | ok taken =>
    have stores : Stores config taken.1 state
        (state.storeRequest config neighbour credential request now).2 :=
          storeRequest_stores accepted
    rw [ended] at stores
    exact .inr ⟨taken.1, taken.2, rfl, stores⟩

/-- Whenever infos have been stored, there is a refresh. -/
theorem storeRequest_changed {changed : Bool}
    (some : infos ≠ [])
    (done : (state.storeRequest config neighbour credential request now).1 = .ok changed) :
    changed = true := by
  unfold storeRequest at done
  rw [accepted] at done
  dsimp only at done
  rw [if_neg (by simpa using some)] at done
  split at done
  · cases done
  unfold storeConnInfo at done
  split at done
  · exact (Except.ok.inj done).symm
  · split at done
    · split at done
      · cases done
      exact (Except.ok.inj done).symm
    · exact (Except.ok.inj done).symm

end

theorem storeForeignNetwork_peerInfos (state : TrustState) (neighbour : Neighbour)
    (request : RouteSync) (now : Nat) :
    (state.storeForeignNetwork neighbour request now).synced.peerInfos = state.synced.peerInfos ∧
      (state.storeForeignNetwork neighbour request now).groupTrustMap = state.groupTrustMap ∧
      (state.storeForeignNetwork neighbour request now).trustedCredentialPubkeys =
        state.trustedCredentialPubkeys ∧
      (state.storeForeignNetwork neighbour request now).declarations = state.declarations := by
  unfold storeForeignNetwork
  split
  · rename_i infos _
    split
    · exact ⟨rfl, rfl, rfl, rfl⟩
    · exact ⟨(takes_updateForeignNetwork state.synced infos now).peerInfos, rfl, rfl, rfl⟩
  · exact ⟨rfl, rfl, rfl, rfl⟩

/-- How the handling of a request can end. -/
theorem doSyncRouteInfo_cases {admitted : Bool} {active : PeerId → Bool} {after : TrustState}
    (ends : (state.doSyncRouteInfo config neighbour admitted request now active).2 = after) :
    after = state ∨
      (∃ error, admitted = true ∧
        state.storeRequest config neighbour (state.credentialInfo neighbour) request now =
          (.error error, after)) ∨
      ∃ changed stored, admitted = true ∧
        state.storeRequest config neighbour (state.credentialInfo neighbour) request now =
          (.ok changed, stored) ∧
        after = (if changed then stored.refreshCredentialTrusts config now active
          else stored).storeForeignNetwork neighbour request now := by
  unfold doSyncRouteInfo at ends
  dsimp only at ends
  split at ends
  · exact .inl ends.symm
  split at ends
  · exact .inl ends.symm
  rename_i admits
  split at ends
  · rename_i error stored done
    exact .inr (.inl ⟨error, by simpa using admits, by rw [done, ← ends]⟩)
  · rename_i changed stored done
    exact .inr (.inr ⟨changed, stored, by simpa using admits, done, ends.symm⟩)

/-! ## Changes of the node's own -/

/-- The own info changes no other one. -/
theorem updateMyPeerInfo_stored (config : TrustConfig) (state : TrustState) (new : RoutePeerInfo)
    (now : Nat) :
    (state.updateMyPeerInfo config new now).trustedCredentialPubkeys =
        state.trustedCredentialPubkeys ∧
      ∀ peerId info,
        (state.updateMyPeerInfo config new now).synced.peerInfos.lookup peerId = some info →
        state.synced.peerInfos.lookup peerId = some info ∨
          peerId = config.myPeerId ∧ info.peerId = peerId := by
  have written : ∀ peerId info, (state.synced.updateMyPeerInfo config.myPeerId
      { new with peerId := config.myPeerId, peerRouteId := config.myPeerRouteId }
      now).1.peerInfos.lookup peerId = some info →
      state.synced.peerInfos.lookup peerId = some info ∨
        peerId = config.myPeerId ∧ info.peerId = peerId := by
    intro peerId info found
    rcases updateMyPeerInfo_cases state.synced config.myPeerId
      { new with peerId := config.myPeerId, peerRouteId := config.myPeerRouteId } now with
      same | ⟨version, inserted⟩
    · rw [same] at found
      exact .inl found
    · rw [inserted, lookup_insert_eq] at found
      split at found
      · rename_i own
        cases found
        exact .inr ⟨own, own.symm⟩
      · exact .inl found
  unfold updateMyPeerInfo
  dsimp only
  split
  · exact ⟨rfl, written⟩
  · exact ⟨rfl, written⟩

theorem updateMyConnInfo_fills (state : TrustState) (connectedPeers : List PeerId) (now : Nat) :
    SyncedRouteInfo.Fills config.defaultDetails state.synced
      (state.updateMyConnInfo config connectedPeers now).synced := by
  have filled : SyncedRouteInfo.Fills config.defaultDetails state.synced
      (state.synced.fillEmptyPeerInfo config.defaultDetails connectedPeers now) :=
    fills_of_connWrites (state.synced.connWrites_fillEmptyPeerInfo connectedPeers)
  refine filled.trans ?_
  unfold updateMyConnInfo SyncedRouteInfo.updateMyConnInfo
  refine SyncedRouteInfo.Fills.trans ?_ (.incVersion _ _)
  split
  · exact .of_same rfl rfl rfl
  · exact .refl _

end TrustState

end EasyTier.Route
