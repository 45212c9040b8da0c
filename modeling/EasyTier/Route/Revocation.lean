import EasyTier.Route.TrustFacts

/-! # Whether a revoked credential stays out

A refresh removes the peers whose key it finds untrusted, but only those whose key the refresh
before had trusted. A peer that comes back after its removal, in an old copy of its info that a
neighbour relays late, is not removed again.
-/

namespace EasyTier.Route

open Data Semantics TrustConfig

namespace TrustState

variable (config : TrustConfig) (state : TrustState)

/-- No other peer is stored as a credential peer with a key that the last refresh did not trust. -/
def NoneUntrusted : Prop :=
  ∀ peerId info, state.synced.peerInfos.lookup peerId = some info → peerId ≠ config.myPeerId →
    1 ≤ info.version → config.isCredentialPeerInfo info = true →
    config.claimedKey info ∈ state.trustedCredentialPubkeys

/-- The info describes another peer as a credential peer, and is newer than what is stored of it. -/
def bringsCredential (info : RoutePeerInfo) : Bool :=
  decide (info.peerId ≠ config.myPeerId) && decide (1 ≤ info.version) &&
    config.isCredentialPeerInfo info &&
    (state.synced.peerInfos.lookup info.peerId).all (·.version < info.version)

/-- A sync that brings a credential peer only with a key that is trusted, or that the infos stored
with it vouch for in the refresh that follows. -/
def vouched : TrustEvent → Bool
  | .sync neighbour admitted request now _ =>
    let credential := state.credentialInfo neighbour
    let stored := state.storeRequest config neighbour credential request now
    match config.acceptedInfos neighbour credential request with
    | .error _ => true
    | .ok (infos, _) =>
      !admitted || infos.all fun info =>
        !state.bringsCredential config info ||
          (!(config.claimedKey info).isEmpty &&
            (decide (config.claimedKey info ∈ state.trustedCredentialPubkeys) ||
              (stored.1.toBool && decide (config.claimedKey info ∈ stored.2.trustedAt config now))))
  | _ => true

/-- The key of every other credential peer is there and trusted. -/
def KeysTrusted (trusts : Bytes → Prop) : Prop :=
  ∀ peerId info, state.synced.peerInfos.lookup peerId = some info → peerId ≠ config.myPeerId →
    1 ≤ info.version → config.isCredentialPeerInfo info = true →
    config.claimedKey info ≠ [] ∧ trusts (config.claimedKey info)

variable {config state}

theorem placeholder_not_credential (now : Nat) :
    config.isCredentialPeerInfo (.empty config.defaultDetails now) = false := by
  simp [isCredentialPeerInfo, details, RoutePeerInfo.empty,
    defaultDetails, config.layout.read_write]

/-- A refresh that finds no key but trusted ones and ones trusted before leaves only trusted
ones. -/
theorem KeysTrusted.refresh {now : Nat}
    (trusted : state.KeysTrusted config fun key =>
      key ∈ state.trustedCredentialPubkeys ∨ key ∈ state.trustedAt config now)
    (active : PeerId → Bool) :
    (state.refreshCredentialTrusts config now active).KeysTrusted config
      (· ∈ (state.refreshCredentialTrusts config now active).trustedCredentialPubkeys) := by
  intro peerId info found other described credential
  rw [(refresh_removes state now active).trusted]
  rw [refresh_peerInfos] at found
  split at found
  · cases found
  rename_i stays
  obtain ⟨nonempty, either⟩ := trusted peerId info found other described credential
  refine ⟨nonempty, ?_⟩
  by_contra untrusted
  rcases either with previous | current
  · refine stays (mem_untrustedAt.mpr ⟨other, info, found, nonempty, ?_, previous, untrusted⟩)
    exact Nat.ne_of_gt described
  · exact untrusted current

/-- Other events store no credential peer. -/
theorem KeysTrusted.of_lookup {trusts : Bytes → Prop} (trusted : state.KeysTrusted config trusts)
    {after : TrustState}
    (lookup : ∀ peerId info, after.synced.peerInfos.lookup peerId = some info →
      state.synced.peerInfos.lookup peerId = some info ∨ peerId = config.myPeerId ∨
        config.isCredentialPeerInfo info = false) :
    after.KeysTrusted config trusts := by
  intro peerId info found other described credential
  rcases lookup peerId info found with stored | own | plain
  · exact trusted peerId info stored other described credential
  · exact absurd own other
  · rw [plain] at credential
    cases credential

/-! ## Requests -/

variable {neighbour : Neighbour} {credential : Option TrustedCredentialPubkey} {request : RouteSync}
  {now : Nat}

/-- Only keys that are there and trusted come with the infos. -/
theorem KeysTrusted.stores {infos : List RoutePeerInfo} {after : TrustState} {trusts : Bytes → Prop}
    (trusted : state.KeysTrusted config trusts) (stores : Stores config infos state after)
    (brought : ∀ info ∈ infos, state.bringsCredential config info = true →
      config.claimedKey info ≠ [] ∧ trusts (config.claimedKey info)) :
    after.KeysTrusted config trusts := by
  intro peerId info found other described credential
  rcases stores.origin peerId info found with
    stored | ⟨_, time, rfl⟩ | ⟨offered, member, time, rfl, rfl, newer⟩
  · exact trusted peerId info stored other described credential
  · rw [placeholder_not_credential] at credential
    cases credential
  · refine brought offered member ?_
    have isNewer : (state.synced.peerInfos.lookup offered.peerId).all
        (·.version < offered.version) = true := by
      cases old : state.synced.peerInfos.lookup offered.peerId with
      | none => rfl
      | some stored => exact decide_eq_true (newer stored old)
    have flagged : config.isCredentialPeerInfo offered = true := credential
    unfold bringsCredential
    rw [isNewer, flagged, decide_eq_true other, decide_eq_true described]
    rfl

theorem vouched_sync {admitted : Bool} {active : PeerId → Bool} {infos : List RoutePeerInfo}
    {raws : List Bytes}
    (allowed : state.vouched config (.sync neighbour admitted request now active) = true)
    (admits : admitted = true)
    (accepted : config.acceptedInfos neighbour (state.credentialInfo neighbour) request =
      .ok (infos, raws)) :
    ∀ info ∈ infos, state.bringsCredential config info = true →
      config.claimedKey info ≠ [] ∧
        (config.claimedKey info ∈ state.trustedCredentialPubkeys ∨
          ((state.storeRequest config neighbour (state.credentialInfo neighbour) request
              now).1.toBool = true ∧
            config.claimedKey info ∈ (state.storeRequest config neighbour
              (state.credentialInfo neighbour) request now).2.trustedAt config now)) := by
  intro info member brings
  unfold vouched at allowed
  dsimp only at allowed
  rw [accepted, admits] at allowed
  simp only [Bool.not_true, Bool.false_or, List.all_eq_true, Bool.or_eq_true, Bool.and_eq_true,
    Bool.not_eq_true', List.isEmpty_eq_false_iff, decide_eq_true_eq] at allowed
  rcases allowed info member with absent | passes
  · rw [brings] at absent
    cases absent
  · exact passes

/-- A vouched sync keeps every credential peer's key trusted. -/
theorem KeysTrusted.sync {admitted : Bool} {active : PeerId → Bool}
    (trusted : state.KeysTrusted config (· ∈ state.trustedCredentialPubkeys))
    (allowed : state.vouched config (.sync neighbour admitted request now active) = true) :
    (state.doSyncRouteInfo config neighbour admitted request now active).2.KeysTrusted config
      (· ∈ (state.doSyncRouteInfo config neighbour admitted request now
        active).2.trustedCredentialPubkeys) := by
  generalize ends : (state.doSyncRouteInfo config neighbour admitted request now active).2 = after
  rcases doSyncRouteInfo_cases ends with
    rfl | ⟨error, admits, failed⟩ | ⟨changed, stored, admits, done, rfl⟩
  · exact trusted
  · rcases storeRequest_ended failed with ⟨_, _, rfl⟩ | ⟨infos, raws, accepted, stores⟩
    · exact trusted
    · have brought := vouched_sync allowed admits accepted
      rw [failed] at brought
      rw [stores.trusted]
      refine trusted.stores stores fun info member brings => ?_
      obtain ⟨nonempty, known | ⟨succeeded, _⟩⟩ := brought info member brings
      · exact ⟨nonempty, known⟩
      · cases succeeded
  · obtain ⟨sameInfos, _, sameTrusted, _⟩ := storeForeignNetwork_peerInfos
      (if changed then stored.refreshCredentialTrusts config now active else stored) neighbour
      request now
    unfold KeysTrusted
    rw [sameInfos, sameTrusted]
    rcases storeRequest_ended done with ⟨_, failed, _⟩ | ⟨infos, raws, accepted, stores⟩
    · cases failed
    have brought := vouched_sync allowed admits accepted
    rw [done] at brought
    cases changed with
    | true =>
      refine KeysTrusted.refresh ?_ active
      rw [stores.trusted]
      refine KeysTrusted.stores (fun peerId info found other described credential => ?_) stores ?_
      · obtain ⟨nonempty, known⟩ := trusted peerId info found other described credential
        exact ⟨nonempty, .inl known⟩
      · intro info member brings
        obtain ⟨nonempty, known | ⟨_, found⟩⟩ := brought info member brings
        · exact ⟨nonempty, .inl known⟩
        · exact ⟨nonempty, .inr found⟩
    | false =>
      -- Nothing was stored, so there is nothing to bring an untrusted key.
      have none : infos = [] := by
        by_contra some
        have changed := storeRequest_changed accepted some (by rw [done])
        cases changed
      rw [none] at stores
      have kept := trusted.stores stores nofun
      rw [← stores.trusted] at kept
      exact kept

/-! ## Runs -/

/-- Every vouched event keeps every credential peer's key trusted. -/
theorem KeysTrusted.perform (event : TrustEvent)
    (trusted : state.KeysTrusted config (· ∈ state.trustedCredentialPubkeys))
    (allowed : state.vouched config event = true) :
    (state.perform config event).KeysTrusted config
      (· ∈ (state.perform config event).trustedCredentialPubkeys) := by
  cases event with
  | sync neighbour admitted request now active => exact trusted.sync allowed
  | refresh now active =>
    refine KeysTrusted.refresh (fun peerId info found other described credential => ?_) active
    obtain ⟨nonempty, known⟩ := trusted peerId info found other described credential
    exact ⟨nonempty, .inl known⟩
  | updateMyPeerInfo new now =>
    obtain ⟨same, written⟩ := updateMyPeerInfo_stored config state new now
    rw [← same] at trusted
    refine trusted.of_lookup fun peerId info found => ?_
    rcases written peerId info found with stored | ⟨own, _⟩
    · exact .inl stored
    · exact .inr (.inl own)
  | updateMyConnInfo connectedPeers now =>
    refine KeysTrusted.of_lookup trusted fun peerId info found => ?_
    rcases (updateMyConnInfo_fills state connectedPeers now).origin found with
      stored | ⟨_, time, rfl⟩
    · exact .inl stored
    · exact .inr (.inr (placeholder_not_credential time))
  | declareGroups declarations => exact trusted
  | removePeers peerIds =>
    rw [← (removes_removePeers state peerIds).trusted] at trusted
    refine trusted.of_lookup fun peerId info found => ?_
    have kept : (if peerId ∈ peerIds then none else state.synced.peerInfos.lookup peerId) =
        some info := ((removes_removePeers state peerIds).peerInfos peerId).symm.trans found
    split at kept
    · cases kept
    exact .inl kept
  | setForeignNetwork foreignNetwork => exact trusted

end TrustState

/-- As long as credential peers are brought only with keys that are vouched for, no peer whose
credential is not trusted is in the database, whatever is revoked, expires or is relayed late. -/
theorem vouched_none_untrusted {config : TrustConfig} {state : TrustState}
    (reached : (trustSystem config).ReachableUnder
      (fun state event => state.vouched config event = true) state) :
    state.NoneUntrusted config := by
  have trusted : state.KeysTrusted config (· ∈ state.trustedCredentialPubkeys) := by
    refine System.ReachableUnder.invariant
      (motive := fun state => state.KeysTrusted config (· ∈ state.trustedCredentialPubkeys))
      ?_ ?_ reached
    · rintro _ rfl peerId info found
      cases found
    · intro before event after holds permitted performed
      cases performed
      exact holds.perform event permitted
  intro peerId info found other described credential
  exact (trusted peerId info found other described credential).2

namespace TrustState

/-- An admin publishes a credential and relays the info of the peer that uses it; later it publishes
the credential no more. -/
def revokingRun : List TrustEvent :=
  [sampleSync 2 [sampleAdmin 2 1 [sampleProof 9#8 [] true], sampleCredentialPeer 9 1 9#8],
    sampleSync 2 [sampleAdmin 2 2 []]]

/-- Another admin, which has not seen the revocation, relays the info it has. -/
def staleCopy : TrustEvent := sampleSync 3 [sampleCredentialPeer 9 1 9#8]

end TrustState

/-- The revoked peer of a vouched run is gone. -/
theorem revoked_peer_stays_out : ∃ state,
    (trustSystem .sample).ReachableUnder
      (fun state event => state.vouched .sample event = true) state ∧
    state.synced.peerInfos.lookup 2 ≠ none ∧ state.synced.peerInfos.lookup 9 = none ∧
    state.NoneUntrusted .sample := by
  refine System.exists_reachableUnder TrustState.start TrustState.revokingRun
    (fun state => state.synced.peerInfos.lookup 2 ≠ none ∧ state.synced.peerInfos.lookup 9 = none)
    rfl (by decide +kernel) ?_
  rintro state reached ⟨described, gone⟩
  exact ⟨described, gone, vouched_none_untrusted reached⟩

/-- The revoked peer is gone; with the stale copy it is in the database again, and no refresh
removes it. -/
theorem revoked_peer_comes_back : ∃ removed,
    (trustSystem .sample).Reachable removed ∧ removed.synced.peerInfos.lookup 9 = none ∧
    ¬ (removed.perform .sample TrustState.staleCopy).NoneUntrusted .sample ∧
    ¬ ((removed.perform .sample TrustState.staleCopy).perform .sample
      (.refresh 0 fun _ => true)).NoneUntrusted .sample := by
  have untrusted : ∀ state : TrustState, (state.synced.peerInfos.lookup 9).any (fun info =>
      decide (1 ≤ info.version ∧ sample.isCredentialPeerInfo info = true ∧
        sample.claimedKey info ∉ state.trustedCredentialPubkeys)) = true →
      ¬ state.NoneUntrusted .sample := by
    intro state back holds
    obtain ⟨info, found, tests⟩ := (Option.any_eq_true _ _).mp back
    obtain ⟨newer, isCredential, unpublished⟩ := of_decide_eq_true tests
    exact unpublished (holds 9 info found (by decide) newer isCredential)
  refine System.exists_reachable TrustState.start TrustState.revokingRun (fun removed =>
    removed.synced.peerInfos.lookup 9 = none ∧
    ∀ state ∈ [removed.perform .sample TrustState.staleCopy,
        (removed.perform .sample TrustState.staleCopy).perform .sample (.refresh 0 fun _ => true)],
      (state.synced.peerInfos.lookup 9).any (fun info =>
        decide (1 ≤ info.version ∧ sample.isCredentialPeerInfo info = true ∧
          sample.claimedKey info ∉ state.trustedCredentialPubkeys)) = true) rfl
            (by decide +kernel) ?_
  rintro removed _ _ ⟨gone, back⟩
  exact ⟨gone, untrusted _ (back _ (by simp)), untrusted _ (back _ (by simp))⟩

end EasyTier.Route
