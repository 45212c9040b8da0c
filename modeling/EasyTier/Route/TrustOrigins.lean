import EasyTier.Route.TrustFacts

/-! # Where trust comes from

Trusted keys come from the infos of admins, and a peer's groups from proofs or from the credential
of the key its info claims. An info of somebody who is no admin changes neither the keys nor the
groups of other peers.
-/

namespace EasyTier.Route

open Acl (IpAddr IpCidr)
open Data Semantics

/-! ## Networks -/

/-- The addresses that share their leading bits with a network are those of an interval. -/
theorem ushiftRight_beq_iff {width : Nat} (network address : BitVec width) (bits : Nat) :
    (network >>> bits == address >>> bits) = true ↔
      network.toNat / 2 ^ bits * 2 ^ bits ≤ address.toNat ∧
        address.toNat ≤ network.toNat / 2 ^ bits * 2 ^ bits + (2 ^ bits - 1) := by
  have positive : 0 < 2 ^ bits := Nat.two_pow_pos bits
  rw [beq_iff_eq, ← BitVec.toNat_inj, BitVec.toNat_ushiftRight, BitVec.toNat_ushiftRight,
    Nat.shiftRight_eq_div_pow, Nat.shiftRight_eq_div_pow, eq_comm, Nat.div_eq_iff positive]
  omega

/-- The check for a part of a network is right: every address of the part is one of the network. -/
theorem contains_of_cidrIsSubset {child parent : IpCidr} (subset : cidrIsSubset child parent = true)
    {address : IpAddr} (member : child.contains address = true) :
    parent.contains address = true := by
  -- Nothing is a part of a network of the other family, or an address of it.
  cases child <;> cases parent <;> cases address <;> first | cases subset | cases member | skip
  all_goals
    rw [IpCidr.contains, ushiftRight_beq_iff] at member ⊢
    simp only [cidrIsSubset, Bool.and_eq_true, decide_eq_true_eq] at subset
    exact ⟨subset.1.trans member.1, member.2.trans subset.2⟩

/-! ## Stored infos -/

variable {info : RoutePeerInfo} {peerId : PeerId}

namespace TrustState

variable {config : TrustConfig}

theorem claimedKey_placeholder (config : TrustConfig) (now : Nat) :
    config.claimedKey (.empty config.defaultDetails now) = [] := by
  simp [TrustConfig.claimedKey, TrustConfig.details, RoutePeerInfo.empty,
    TrustConfig.defaultDetails, config.layout.read_write]

variable {state : TrustState}

theorem doSyncRouteInfo_origin {neighbour : Neighbour} {admitted : Bool}
    {request : RouteSync} {now : Nat} {active : PeerId → Bool}
    (found : (state.doSyncRouteInfo config neighbour admitted request now
      active).2.synced.peerInfos.lookup peerId = some info) :
    state.synced.peerInfos.lookup peerId = some info ∨
      (∃ time, info = .empty config.defaultDetails time) ∨ info.peerId = peerId := by
  -- Whatever is left of the request when its handling ends has been stored by it.
  have stored : ∀ result later,
      state.storeRequest config neighbour (state.credentialInfo neighbour) request now =
        (result, later) → later.synced.peerInfos.lookup peerId = some info →
      state.synced.peerInfos.lookup peerId = some info ∨
        (∃ time, info = .empty config.defaultDetails time) ∨ info.peerId = peerId := by
    intro result later ends kept
    rcases storeRequest_ended ends with ⟨_, _, rfl⟩ | ⟨infos, raws, _, stores⟩
    · exact .inl kept
    · rcases stores.origin peerId info kept with
        same | ⟨_, placeholder⟩ | ⟨offered, _, time, named, rfl, _⟩
      · exact .inl same
      · exact .inr (.inl placeholder)
      · exact .inr (.inr named)
  generalize ends : (state.doSyncRouteInfo config neighbour admitted request now active).2 = after
    at found
  rcases doSyncRouteInfo_cases ends with
    rfl | ⟨error, _, failed⟩ | ⟨changed, later, _, done, rfl⟩
  · exact .inl found
  · exact stored _ _ failed found
  · rw [(storeForeignNetwork_peerInfos _ _ _ _).1] at found
    refine stored _ _ done ?_
    cases changed with
    | false => exact found
    | true =>
      rw [if_pos rfl, refresh_peerInfos] at found
      split at found
      · cases found
      exact found

/-- Every stored info was there, is a placeholder, or is stored under its own id. -/
theorem perform_origin {event : TrustEvent}
    (found : (state.perform config event).synced.peerInfos.lookup peerId = some info) :
    state.synced.peerInfos.lookup peerId = some info ∨
      (∃ time, info = .empty config.defaultDetails time) ∨ info.peerId = peerId := by
  cases event with
  | sync neighbour admitted request now active => exact doSyncRouteInfo_origin found
  | refresh now active =>
    have kept := (refresh_peerInfos state now active peerId).symm.trans found
    split at kept
    · cases kept
    exact .inl kept
  | updateMyPeerInfo new now =>
    rcases (updateMyPeerInfo_stored config state new now).2 peerId info found with same | ⟨_, named⟩
    · exact .inl same
    · exact .inr (.inr named)
  | updateMyConnInfo connectedPeers now =>
    rcases (updateMyConnInfo_fills state connectedPeers now).origin found with
      stored | ⟨_, placeholder⟩
    · exact .inl stored
    · exact .inr (.inl placeholder)
  | declareGroups declarations => exact .inl found
  | removePeers peerIds =>
    have kept := ((removes_removePeers state peerIds).peerInfos peerId).symm.trans found
    split at kept
    · cases kept
    exact .inl kept
  | setForeignNetwork foreignNetwork => exact .inl found

/-- An info that claims a key is stored under its own id. -/
def InfosNamed (config : TrustConfig) (state : TrustState) : Prop :=
  ∀ peerId info, state.synced.peerInfos.lookup peerId = some info →
    config.claimedKey info ≠ [] → info.peerId = peerId

theorem InfosNamed.lookup (named : state.InfosNamed config)
    (member : info ∈ storedInfos state.synced)
    (claims : config.claimedKey info ≠ []) :
    state.synced.peerInfos.lookup info.peerId = some info := by
  obtain ⟨peerId, found⟩ := mem_storedInfos.mp member
  rw [named peerId info found claims]
  exact found

theorem reachable_infosNamed (reached : (trustSystem config).Reachable state) :
    state.InfosNamed config := by
  refine System.ReachableUnder.invariant (motive := fun state => state.InfosNamed config) ?_ ?_
    reached
  · rintro _ rfl peerId info found
    cases found
  · rintro before event _ named _ ⟨⟩ peerId info found claims
    rcases perform_origin found with stored | ⟨time, rfl⟩ | own
    · exact named peerId info stored claims
    · exact absurd (claimedKey_placeholder config time) claims
    · exact own

end TrustState

open TrustState

/-! ## Trusted keys -/

namespace TrustConfig

variable {config : TrustConfig}

/-- Entries that a filter rejects can go before it. -/
theorem filter_kerase {Value : Type} (keeps : (Sigma fun _ : PeerId => Value) → Bool)
    {entries : List (Sigma fun _ : PeerId => Value)}
    (rejected : ∀ value, ⟨peerId, value⟩ ∈ entries → keeps ⟨peerId, value⟩ = false) :
    (entries.kerase peerId).filter keeps = entries.filter keeps := by
  induction entries with
  | nil => rfl
  | cons entry entries ih =>
    obtain ⟨other, value⟩ := entry
    by_cases same : peerId = other
    · subst same
      have erased : List.kerase peerId (⟨peerId, value⟩ :: entries) = entries :=
        List.kerase_cons_eq rfl
      rw [erased, List.filter_cons_of_neg]
      rw [rejected value List.mem_cons_self]
      exact Bool.false_ne_true
    · rw [List.kerase_cons_ne same, List.filter_cons, List.filter_cons,
        ih fun value member => rejected value (List.mem_cons_of_mem _ member)]

/-- Placeholders do not change what the admins publish. -/
theorem adminInfos_fills {details : Bytes} {before after : SyncedRouteInfo}
    (fills : SyncedRouteInfo.Fills details before after) :
    config.adminInfos after = config.adminInfos before := by
  obtain ⟨⟨fresh, added, empties⟩, raws, _⟩ := fills
  unfold adminInfos
  rw [added, raws, List.reverse_append, List.filter_append]
  have none : fresh.reverse.filter (fun entry => config.isAdminPeer entry.2) = [] := by
    refine List.filter_eq_nil_iff.mpr fun entry member => ?_
    obtain ⟨now, placeholder⟩ := empties entry (List.mem_reverse.mp member)
    rw [placeholder]
    exact Bool.false_ne_true
  rw [none, List.append_nil]

/-- Nor does an info of no admin in the place of one. -/
theorem adminInfos_insert {synced : SyncedRouteInfo}
    {raw : Bytes} (plain : config.isAdminPeer info = false)
    (replaced : ∀ old, synced.peerInfos.lookup peerId = some old → config.isAdminPeer old = false) :
    config.adminInfos
        { synced with
          rawPeerInfos := synced.rawPeerInfos.insert peerId raw
          peerInfos := synced.peerInfos.insert peerId info } = config.adminInfos synced := by
  have rejected : ∀ old, (⟨peerId, old⟩ : Sigma fun _ : PeerId => RoutePeerInfo) ∈
      synced.peerInfos.entries → config.isAdminPeer old = false :=
    fun old member => replaced old (AList.mem_lookup_iff.mpr member)
  have filtered : (synced.peerInfos.insert peerId info).entries.reverse.filter
      (fun entry => config.isAdminPeer entry.2) =
        synced.peerInfos.entries.reverse.filter (fun entry => config.isAdminPeer entry.2) := by
    rw [List.filter_reverse, List.filter_reverse, AList.entries_insert,
      List.filter_cons_of_neg (by rw [plain]; exact Bool.false_ne_true),
      filter_kerase (fun entry => config.isAdminPeer entry.2) rejected]
  unfold adminInfos
  rw [filtered]
  refine List.map_congr_left fun entry member => ?_
  obtain ⟨member, admin⟩ := List.mem_filter.mp member
  have other : entry.1 ≠ peerId := by
    rintro rfl
    rw [rejected entry.2 (List.mem_reverse.mp member)] at admin
    cases admin
  rw [AList.lookup_insert_ne other]

end TrustConfig

/-! ## Groups -/

/-- The peer has the group in the map. -/
def HasGroup (map : AList fun _ : PeerId => GroupMap) (peerId : PeerId) (group : String) : Prop :=
  ∃ groups, map.lookup peerId = some groups ∧ group ∈ groups

instance (map : AList fun _ : PeerId => GroupMap) (peerId : PeerId) (group : String) :
    Decidable (HasGroup map peerId group) :=
  decidable_of_iff ((map.lookup peerId).any fun groups => decide (group ∈ groups)) <| by
    simp only [HasGroup, Option.any_eq_true, decide_eq_true_eq]

/-- A proof for the group of the peer verifies under the secret that is declared for the group. -/
def TrustConfig.Proven (config : TrustConfig) (declarations : List PeerGroupIdentity)
    (peerId : PeerId) (group : String) : Prop :=
  ∃ declared ∈ declarations, declared.groupName = group ∧
    ∃ proof, config.library.verifyGroup ⟨group, proof⟩ declared.groupSecret peerId = true

variable {group : String} {map : AList fun _ : PeerId => GroupMap} {groups : GroupMap}

theorem hasGroup_setPeerGroups :
    HasGroup (setPeerGroups map peerId groups) peerId group ↔ group ∈ groups := by
  unfold HasGroup
  rw [lookup_setPeerGroups]
  constructor
  · rintro ⟨found, same, member⟩
    split at same
    · cases same
    cases same
    exact member
  · intro member
    refine ⟨groups, if_neg fun empty => ?_, member⟩
    rw [AList.mem_keys, AList.keys, List.isEmpty_iff.mp empty] at member
    cases member

theorem hasGroup_setPeerGroups_ne {other : PeerId} (different : other ≠ peerId) :
    HasGroup (setPeerGroups map peerId groups) other group ↔ HasGroup map other group := by
  unfold HasGroup
  rw [lookup_setPeerGroups_ne different]

/-- Who is no admin has its groups by proof only. -/
theorem TrustConfig.proven_of_mem_verifyGroups {config : TrustConfig}
    {declarations : List PeerGroupIdentity}
    (plain : config.isAdminPeer info = false)
    (member : group ∈ config.verifyGroups declarations info) :
    config.Proven declarations info.peerId group := by
  unfold verifyGroups at member
  rw [plain, Bool.and_false, if_neg Bool.false_ne_true] at member
  -- Each round keeps that the group, if it has been found, is proven.
  refine List.foldlRecOn
    (motive := fun trusted : GroupMap => group ∈ trusted →
      config.Proven declarations info.peerId group)
    _ _ (fun absent => absurd absent (AList.notMem_empty group)) ?_ member
  intro trusted proven shown _
  split
  · exact proven
  rename_i declared found
  split
  · rename_i verified
    intro member
    rcases (AList.mem_insert _).mp member with rfl | earlier
    · have named := List.find?_some found
      exact ⟨declared, List.mem_reverse.mp (List.mem_of_find?_eq_some found),
        beq_iff_eq.mp named, shown.groupProof, verified⟩
    · exact proven earlier
  · exact proven

/-! ## Groups of credentials -/

section Granted

variable {config : TrustConfig} {trusted : AList fun _ : Bytes => TrustedCredentialPubkey}

/-- The info claims a trusted key whose credential has the group. -/
def TrustConfig.Grants (config : TrustConfig)
    (trusted : AList fun _ : Bytes => TrustedCredentialPubkey) (info : RoutePeerInfo)
    (group : String) : Prop :=
  config.claimedKey info ≠ [] ∧
    ∃ credential, trusted.lookup (config.claimedKey info) = some credential ∧
      group ∈ credential.groups

theorem mem_granted {names : List String} : group ∈ names.foldl (fun groups group =>
      if group ∈ groups then groups else groups.insert group []) groups ↔
      group ∈ groups ∨ group ∈ names := by
  induction names generalizing groups with
  | nil => simp
  | cons name names ih =>
    rw [List.foldl_cons, ih, List.mem_cons, ← or_assoc]
    refine or_congr_left ?_
    split
    · rename_i present
      constructor
      · exact .inl
      · rintro (member | rfl)
        · exact member
        · exact present
    · rw [AList.mem_insert, or_comm]

theorem mem_getProofGroups (member : group ∈ getProofGroups map peerId) :
    HasGroup map peerId group := by
  unfold getProofGroups at member
  cases found : map.lookup peerId with
  | none =>
    rw [found] at member
    exact absurd member (AList.notMem_empty group)
  | some groups =>
    rw [found, Option.map_some, Option.getD_some] at member
    obtain ⟨proof, stored⟩ := Option.isSome_iff_exists.mp (AList.lookup_isSome.mpr member)
    have kept := (lookup_retain_iff.mp stored).1
    exact ⟨groups, found, AList.lookup_isSome.mp (Option.isSome_iff_exists.mpr ⟨proof, kept⟩)⟩

/-- A round leaves the groups of other peers. -/
theorem hasGroup_round_ne (different : peerId ≠ info.peerId) :
    HasGroup (grantCredentialGroups config trusted map info) peerId group ↔
      HasGroup map peerId group := by
  unfold grantCredentialGroups
  split
  · exact .rfl
  · split
    · exact .rfl
    · exact hasGroup_setPeerGroups_ne different

/-- After a round for the peer itself, a group is granted by its info or was there. -/
theorem hasGroup_round
    (has : HasGroup (grantCredentialGroups config trusted map info) info.peerId group) :
    HasGroup map info.peerId group ∨ config.Grants trusted info group := by
  unfold grantCredentialGroups at has
  split at has
  · exact .inl has
  rename_i nonempty
  split at has
  · exact .inl has
  · rename_i credential found
    rw [hasGroup_setPeerGroups, mem_granted] at has
    rcases has with proven | granted
    · exact .inl (mem_getProofGroups proven)
    · exact .inr ⟨fun empty => nonempty (List.isEmpty_iff.mpr empty), credential, found, granted⟩

theorem hasGroup_round_of_grants (grants : config.Grants trusted info group) :
    HasGroup (grantCredentialGroups config trusted map info) info.peerId group := by
  obtain ⟨nonempty, credential, found, member⟩ := grants
  unfold grantCredentialGroups
  rw [if_neg fun empty => nonempty (List.isEmpty_iff.mp empty), found]
  rw [hasGroup_setPeerGroups, mem_granted]
  exact .inr member

/-- A group after all rounds is granted by an info of the peer or was there. -/
theorem hasGroup_rounds {infos : List RoutePeerInfo}
    (has : HasGroup (infos.foldl (grantCredentialGroups config trusted) map) peerId
      group) :
    HasGroup map peerId group ∨
      ∃ info ∈ infos, info.peerId = peerId ∧ config.Grants trusted info group := by
  induction infos generalizing map with
  | nil => exact .inl has
  | cons info infos ih =>
    rcases ih has with earlier | ⟨granting, member, rest⟩
    · by_cases own : peerId = info.peerId
      · subst own
        rcases hasGroup_round earlier with before | grants
        · exact .inl before
        · exact .inr ⟨info, List.mem_cons_self, rfl, grants⟩
      · exact .inl ((hasGroup_round_ne own).mp earlier)
    · exact .inr ⟨granting, List.mem_cons_of_mem _ member, rest⟩

/-- A group that every info of the peer grants which grants any is there after all rounds. -/
theorem hasGroup_rounds_of_grants {infos : List RoutePeerInfo}
    (grants : (HasGroup map peerId group) ∨
      ∃ info ∈ infos, info.peerId = peerId ∧ config.Grants trusted info group)
    (agree : ∀ info ∈ infos, info.peerId = peerId → config.claimedKey info ≠ [] →
      config.Grants trusted info group) :
    HasGroup (infos.foldl (grantCredentialGroups config trusted) map) peerId group := by
  induction infos generalizing map with
  | nil =>
    rcases grants with has | ⟨_, member, _⟩
    · exact has
    · cases member
  | cons info infos ih =>
    refine ih ?_ fun later member => agree later (List.mem_cons_of_mem _ member)
    by_cases own : info.peerId = peerId
    · subst own
      by_cases claims : config.claimedKey info = []
      · rcases grants with has | ⟨granting, member, named, grants⟩
        · refine .inl ?_
          unfold grantCredentialGroups
          rw [if_pos (List.isEmpty_iff.mpr claims)]
          exact has
        · rcases List.mem_cons.mp member with rfl | later
          · exact absurd claims grants.1
          exact .inr ⟨granting, later, named, grants⟩
      · exact .inl (hasGroup_round_of_grants (agree info List.mem_cons_self rfl claims))
    · rcases grants with has | ⟨granting, member, named, grants⟩
      · exact .inl ((hasGroup_round_ne (Ne.symm own)).mpr has)
      · rcases List.mem_cons.mp member with rfl | later
        · exact absurd named own
        exact .inr ⟨granting, later, named, grants⟩

end Granted

end EasyTier.Route
