import EasyTier.Route.Convergence

/-! # Batches of peer infos that fail

`update_peer_infos` stores the infos of a batch one by one and counts the version of the database at
its end. An info refused as a duplicate ends it early: what stands before it in the batch has been
stored by then, and the version does not tell.
-/

namespace EasyTier.Route

open Data Data.VersionedMap

namespace SyncedRouteInfo

/-- The check of an info of a batch, against what is known when its turn comes. -/
def checkItem (info : SyncedRouteInfo) (myPeerId myPeerRouteId : Nat) (dstPeerId : PeerId)
    (routeInfo : RoutePeerInfo) : Except RouteError Unit :=
  info.checkDuplicatePeerId myPeerId myPeerRouteId dstPeerId
    (if routeInfo.peerId = dstPeerId then (info.peerInfos.lookup dstPeerId).map (·.peerRouteId)
      else none) routeInfo

/-- The database with the newer of its infos and some others. -/
def knowing (info : SyncedRouteInfo) (now : Nat) (infos : List RoutePeerInfo) : SyncedRouteInfo :=
  { info with
    peerInfos := offers (·.version) info.peerInfos
      (infos.map fun routeInfo => (routeInfo.peerId, routeInfo.stamp now)) }

/-- Every info passes the check when its turn comes. -/
def LetThrough (myPeerId myPeerRouteId : Nat) (dstPeerId : PeerId) (now : Nat) :
    SyncedRouteInfo → List RoutePeerInfo → Prop
  | _, [] => True
  | info, routeInfo :: infos =>
    info.checkItem myPeerId myPeerRouteId dstPeerId routeInfo = .ok () ∧
      LetThrough myPeerId myPeerRouteId dstPeerId now (info.knowing now [routeInfo]) infos

/-- An info the database has no older one of. -/
def Knows (info : SyncedRouteInfo) (routeInfo : RoutePeerInfo) : Prop :=
  ∃ stored, info.peerInfos.lookup routeInfo.peerId = some stored ∧
    routeInfo.version ≤ stored.version

variable {myPeerId myPeerRouteId : Nat} {dstPeerId : PeerId} {now : Nat}
  {info other : SyncedRouteInfo} {infos : List RoutePeerInfo} {raws : List Bytes} {changed : Bool}

theorem checkItem_congr (same : info.peerInfos = other.peerInfos) (routeInfo : RoutePeerInfo) :
    info.checkItem myPeerId myPeerRouteId dstPeerId routeInfo =
      other.checkItem myPeerId myPeerRouteId dstPeerId routeInfo := by
  unfold checkItem checkDuplicatePeerId getPeerInfoVersionWithDefault
  rw [same]

theorem letThrough_congr (same : info.peerInfos = other.peerInfos) :
    LetThrough myPeerId myPeerRouteId dstPeerId now info infos ↔
      LetThrough myPeerId myPeerRouteId dstPeerId now other infos := by
  induction infos generalizing info other with
  | nil => exact Iff.rfl
  | cons routeInfo infos ih =>
    have next : (info.knowing now [routeInfo]).peerInfos =
        (other.knowing now [routeInfo]).peerInfos := by
      simp only [knowing, same]
    exact and_congr (by rw [checkItem_congr same]) (ih next)

/-- What one turn of the loop stores. -/
def storeItem (now : Nat) (info : SyncedRouteInfo) (routeInfo : RoutePeerInfo) (raw : Bytes) :
    SyncedRouteInfo :=
  if (info.peerInfos.lookup routeInfo.peerId).all (·.version < routeInfo.version) then
    { info with
      rawPeerInfos := info.rawPeerInfos.insert routeInfo.peerId raw
      peerInfos := info.peerInfos.insert routeInfo.peerId (routeInfo.stamp now) }
  else info

section

variable (now : Nat) (info : SyncedRouteInfo) (routeInfo : RoutePeerInfo) (raw : Bytes)

theorem peerInfos_storeItem :
    (storeItem now info routeInfo raw).peerInfos = (info.knowing now [routeInfo]).peerInfos := by
  unfold storeItem
  split
  · rename_i larger
    exact (if_pos larger).symm
  · rename_i notLarger
    exact (if_neg notLarger).symm

theorem peerInfos_knowing_storeItem (later : List RoutePeerInfo) :
    ((storeItem now info routeInfo raw).knowing now later).peerInfos =
      (info.knowing now (routeInfo :: later)).peerInfos := by
  simp only [knowing, peerInfos_storeItem]
  rfl

theorem version_storeItem : (storeItem now info routeInfo raw).version = info.version := by
  unfold storeItem
  split <;> rfl

end

/-- Nothing is stored exactly of an info that is known. -/
theorem knows_iff (info : SyncedRouteInfo) (routeInfo : RoutePeerInfo) :
    info.Knows routeInfo ↔
      ¬ (info.peerInfos.lookup routeInfo.peerId).all (·.version < routeInfo.version) := by
  unfold Knows
  cases info.peerInfos.lookup routeInfo.peerId with
  | none => simp
  | some stored => simp

variable {routeInfo : RoutePeerInfo}

theorem storeItem_of_knows (knows : info.Knows routeInfo) (now : Nat)
    (raw : Bytes) : storeItem now info routeInfo raw = info :=
  if_neg ((knows_iff info routeInfo).mp knows)

/-- A turn that is let through goes on with what it stored. -/
theorem updatePeerInfosFrom_cons_ok
    (passed : info.checkItem myPeerId myPeerRouteId dstPeerId routeInfo = .ok ()) (now : Nat)
    (changed : Bool) (infos : List RoutePeerInfo) (raw : Bytes) (raws : List Bytes) :
    ∃ flag, updatePeerInfosFrom myPeerId myPeerRouteId dstPeerId now info changed
        (routeInfo :: infos) (raw :: raws) =
      updatePeerInfosFrom myPeerId myPeerRouteId dstPeerId now (storeItem now info routeInfo raw)
        flag infos raws := by
  unfold checkItem at passed
  rw [updatePeerInfosFrom]
  rw [passed]
  by_cases larger :
      (info.peerInfos.lookup routeInfo.peerId).all (·.version < routeInfo.version)
  · rw [if_pos larger, storeItem, if_pos larger]
    exact ⟨true, rfl⟩
  · rw [if_neg larger, storeItem, if_neg larger]
    exact ⟨changed, rfl⟩

theorem updatePeerInfosFrom_cons_error {raw : Bytes} {error : RouteError}
    (refused : info.checkItem myPeerId myPeerRouteId dstPeerId routeInfo = .error error) :
    updatePeerInfosFrom myPeerId myPeerRouteId dstPeerId now info changed (routeInfo :: infos)
      (raw :: raws) = (.error error, info) := by
  unfold checkItem at refused
  rw [updatePeerInfosFrom]
  rw [refused]

/-- Where a batch was refused: after infos that were let through, which have been stored. -/
structure RefusedAt (myPeerId myPeerRouteId : Nat) (dstPeerId : PeerId) (now : Nat)
    (info : SyncedRouteInfo) (infos : List RoutePeerInfo) (raws : List Bytes)
    (earlier : List RoutePeerInfo) (refused : RoutePeerInfo) (later : List RoutePeerInfo) :
    Prop where
  batch : infos = earlier ++ refused :: later
  /-- The loop reads the bytes of an info before it checks the info. -/
  raw : earlier.length < raws.length
  letThrough : LetThrough myPeerId myPeerRouteId dstPeerId now info earlier
  duplicate : (info.knowing now earlier).checkItem myPeerId myPeerRouteId dstPeerId refused =
    .error .duplicatePeerId

/-- What is stored when an info is refused. -/
theorem RefusedAt.stored {earlier later : List RoutePeerInfo} {refused : RoutePeerInfo}
    (stops : RefusedAt myPeerId myPeerRouteId dstPeerId now info infos raws earlier refused later)
    (changed : Bool) :
    ∃ after, updatePeerInfosFrom myPeerId myPeerRouteId dstPeerId now info changed infos raws =
        (.error .duplicatePeerId, after) ∧
      after.peerInfos = (info.knowing now earlier).peerInfos ∧ after.version = info.version ∧
      ((∀ routeInfo ∈ earlier, info.Knows routeInfo) → after = info) := by
  obtain ⟨rfl, long, passed, duplicate⟩ := stops
  induction earlier generalizing info changed raws with
  | nil =>
    cases raws with
    | nil => exact absurd long (Nat.not_lt_zero _)
    | cons raw raws =>
      exact ⟨info, updatePeerInfosFrom_cons_error duplicate, rfl, rfl, fun _ => rfl⟩
  | cons routeInfo earlier ih =>
    cases raws with
    | nil => exact absurd long (Nat.not_lt_zero _)
    | cons raw raws =>
      have same := peerInfos_storeItem now info routeInfo raw
      obtain ⟨flag, next⟩ := updatePeerInfosFrom_cons_ok passed.1 now changed
        (earlier ++ refused :: later) raw raws
      have later := peerInfos_knowing_storeItem now info routeInfo raw earlier
      obtain ⟨after, ran, stored, kept, unchanged⟩ := ih flag
        (Nat.lt_of_succ_lt_succ long) ((letThrough_congr same).mpr passed.2)
        (by rw [checkItem_congr later]; exact duplicate)
      refine ⟨after, next.trans ran, stored.trans later,
        kept.trans (version_storeItem now info routeInfo raw), fun known => ?_⟩
      have untouched := storeItem_of_knows (known routeInfo (List.mem_cons_self ..)) now raw
      rw [untouched] at unchanged
      exact unchanged fun one inside => known one (List.mem_cons_of_mem _ inside)

/-- A batch fails as a duplicate only where one of its infos is refused. -/
theorem exists_refusedAt {after : SyncedRouteInfo}
    (failed : updatePeerInfosFrom myPeerId myPeerRouteId dstPeerId now info changed infos raws =
      (.error .duplicatePeerId, after)) :
    ∃ earlier refused later,
      RefusedAt myPeerId myPeerRouteId dstPeerId now info infos raws earlier refused later := by
  induction infos generalizing info changed raws with
  | nil => cases failed
  | cons routeInfo infos ih =>
    cases raws with
    | nil => cases failed
    | cons raw raws =>
      cases checked : info.checkItem myPeerId myPeerRouteId dstPeerId routeInfo with
      | error error =>
        rw [updatePeerInfosFrom_cons_error checked] at failed
        cases failed
        exact ⟨[], routeInfo, infos, rfl, Nat.succ_pos _, trivial, checked⟩
      | ok _ =>
        obtain ⟨flag, next⟩ := updatePeerInfosFrom_cons_ok checked now changed infos raw raws
        obtain ⟨earlier, refused, later, batch, long, passed, duplicate⟩ := ih (next ▸ failed)
        have same := peerInfos_storeItem now info routeInfo raw
        have known := peerInfos_knowing_storeItem now info routeInfo raw earlier
        exact ⟨routeInfo :: earlier, refused, later, congrArg (routeInfo :: ·) batch,
          Nat.succ_lt_succ long, ⟨checked, (letThrough_congr same).mp passed⟩,
          by rw [← checkItem_congr known]; exact duplicate⟩

theorem updatePeerInfos_refused {after : SyncedRouteInfo} :
    info.updatePeerInfos myPeerId myPeerRouteId dstPeerId infos raws now =
        (.error .duplicatePeerId, after) ↔
      updatePeerInfosFrom myPeerId myPeerRouteId dstPeerId now info false infos raws =
        (.error .duplicatePeerId, after) := by
  unfold updatePeerInfos
  split
  · rename_i looped
    rw [looped]
    simp
  · rename_i looped
    rw [looped]
    simp

/-- Offered infos leave no trace only if all of them are known. -/
theorem knows_of_unchanged {earlier : List RoutePeerInfo}
    (unchanged : (info.knowing now earlier).peerInfos = info.peerInfos)
    (inside : routeInfo ∈ earlier) : info.Knows routeInfo := by
  have offered : (routeInfo.peerId, routeInfo.stamp now) ∈
      earlier.map fun routeInfo => (routeInfo.peerId, routeInfo.stamp now) :=
    List.mem_map.mpr ⟨routeInfo, inside, rfl⟩
  obtain ⟨kept, found, covers⟩ : ∃ kept, (info.knowing now earlier).peerInfos.lookup
      routeInfo.peerId = some kept ∧ (routeInfo.stamp now).version ≤ kept.version :=
    lookup_offers_covers offered
  exact ⟨kept, unchanged ▸ found, covers⟩

/-- A failing batch leaves the infos as they were, or a larger version, exactly if nothing newer
than what is known stands before the info it is refused for. -/
theorem failed_batch_visible_iff (info : SyncedRouteInfo) (myPeerId myPeerRouteId : Nat)
    (dstPeerId : PeerId) (infos : List RoutePeerInfo) (raws : List Bytes) (now : Nat) :
    (∀ after, info.updatePeerInfos myPeerId myPeerRouteId dstPeerId infos raws now =
        (.error .duplicatePeerId, after) →
      (after.peerInfos = info.peerInfos ∧ after.rawPeerInfos = info.rawPeerInfos) ∨
        info.version < after.version) ↔
    ∀ earlier refused later,
      RefusedAt myPeerId myPeerRouteId dstPeerId now info infos raws earlier refused later →
      ∀ routeInfo ∈ earlier, info.Knows routeInfo := by
  constructor
  · intro visible earlier refused later stops routeInfo inside
    obtain ⟨after, failed, stored, version, -⟩ := stops.stored false
    rcases visible after (updatePeerInfos_refused.mpr failed) with ⟨unchanged, -⟩ | larger
    · exact knows_of_unchanged (stored ▸ unchanged) inside
    · exact absurd version (Nat.ne_of_gt larger)
  · intro known after failed
    rw [updatePeerInfos_refused] at failed
    obtain ⟨earlier, refused, later, stops⟩ := exists_refusedAt failed
    obtain ⟨same, failedToo, -, -, unchanged⟩ := stops.stored false
    have isInfo : after = info := by
      rw [failed] at failedToo
      cases failedToo
      exact unchanged (known earlier refused later stops)
    rw [isInfo]
    exact .inl ⟨rfl, rfl⟩

private def infoOf (peerId peerRouteId version : Nat) : RoutePeerInfo where
  peerId := peerId
  peerRouteId := peerRouteId
  version := version
  avoidRelayData := false
  details := []
  lastUpdate := 0

/-- A database that knows peer 2, the sender of the batches below. -/
private def knowsSender : SyncedRouteInfo :=
  { SyncedRouteInfo.empty with
    peerInfos := AList.singleton 2 (infoOf 2 20 5)
    rawPeerInfos := AList.singleton 2 [5#8]
    version := 1 }

/-- The info of peer 9 is stored before that of peer 2 is refused, and the version stays at 1. -/
theorem refused_batch_stores_ninth_peer :
    ∃ after, knowsSender.updatePeerInfos 1 10 2 [infoOf 9 90 1, infoOf 2 21 3] [[1#8], [3#8]] 7 =
        (.error .duplicatePeerId, after) ∧
      after.peerInfos.lookup 9 = some { infoOf 9 90 1 with lastUpdate := 7 } ∧
      knowsSender.peerInfos.lookup 9 = none ∧ after.rawPeerInfos.lookup 9 = some [1#8] ∧
      knowsSender.rawPeerInfos.lookup 9 = none ∧ after.version = knowsSender.version :=
  ⟨_, rfl, by decide +kernel⟩

end SyncedRouteInfo

end EasyTier.Route
