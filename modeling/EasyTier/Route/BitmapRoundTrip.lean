import EasyTier.Route.Convergence
import EasyTier.Route.ReceivedSync

/-! # The connection bitmap, sent and received

The cached bitmap has a row for every reachable peer of the connection map and for every peer those
are connected with. A reachable peer's row names all its peers, under its version; a peer that is
only named has version 0, and a receiver that knows nothing keeps a placeholder for it.
-/

namespace EasyTier.Route

open Data Data.VersionedMap

/-! ## Ordered sets of peers -/

theorem mem_collectPeers {peerIds : List PeerId} {peerId : PeerId} :
    peerId ∈ collectPeers peerIds ↔ peerId ∈ peerIds := by
  rw [collectPeers, List.mem_insertionSort, List.mem_dedup]

/-- An ordered set is determined by its members. -/
theorem collectPeers_congr {one other : List PeerId}
    (same : ∀ peerId, peerId ∈ one ↔ peerId ∈ other) : collectPeers one = collectPeers other := by
  have perm : one.dedup.Perm other.dedup :=
    (List.perm_ext_iff_of_nodup one.nodup_dedup other.nodup_dedup).mpr fun peerId => by
      simpa using same peerId
  have sorted : (collectPeers one).Perm (collectPeers other) :=
    ((List.perm_insertionSort _ _).trans perm).trans (List.perm_insertionSort _ _).symm
  exact sorted.eq_of_pairwise (fun _ _ _ _ => Nat.le_antisymm) (List.pairwise_insertionSort _ _)
    (List.pairwise_insertionSort _ _)

namespace RouteConnBitmap

/-! ## Packed bits -/

/-- Or-ing in the bits of a list one by one sets those that are to be set. -/
theorem getLsbD_packBits (isSet : Nat → Bool) (bits : List Nat) (start : Byte) {index : Nat}
    (inside : index < 8) :
    (bits.foldl (fun byte bit => if isSet bit then byte ||| (1#8 <<< bit) else byte)
      start).getLsbD index = (start.getLsbD index || (decide (index ∈ bits) && isSet index)) := by
  induction bits generalizing start with
  | nil => simp
  | cons bit bits ih =>
    rw [List.foldl_cons, ih]
    by_cases same : index = bit
    · subst same
      cases isSet index <;> simp [inside]
    · have other : (1#8 <<< bit).getLsbD index = false := by
        simp
        omega
      cases isSet bit <;> simp [same, other]

/-- A row reads as the peers whose bits are set. -/
theorem connectedFrom_eq {bitmap : RouteConnBitmap} {row index : Nat} {columns : List PeerIdVersion}
    {isSet : PeerId → Bool}
    (bits : ∀ offset column, columns[offset]? = some column →
      bitmap.getBit (row * bitmap.peerIds.length + (index + offset)) =
        .ok (isSet column.peerId)) :
    bitmap.connectedFrom row index columns = .ok ((columns.map (·.peerId)).filter isSet) := by
  induction columns generalizing index with
  | nil => rfl
  | cons column columns ih =>
    have here := bits 0 column rfl
    have rest := ih fun offset other found => by
      have later := bits (offset + 1) other found
      rwa [show index + (offset + 1) = index + 1 + offset by omega] at later
    unfold connectedFrom
    rw [← Nat.add_zero index, here, Nat.add_zero]
    rw [rest]
    cases chosen : isSet column.peerId <;> simp [Except.map, chosen]

/-! ## The rows of the cached bitmap -/

section Rows

variable (connMap : AList fun _ : PeerId => RouteConnInfo) (reachable : PeerId → Bool)

theorem peerIds_ofConnMap :
    (ofConnMap connMap reachable).peerIds = allPeerIds connMap reachable := rfl

theorem getBit_ofConnMap {index : Nat}
    (inside :
      index < (allPeerIds connMap reachable).length * (allPeerIds connMap reachable).length) :
    (ofConnMap connMap reachable).getBit index =
      .ok (connBit connMap (allPeerIds connMap reachable) index) := by
  have byteInside : index / 8 < ((allPeerIds connMap reachable).length *
      (allPeerIds connMap reachable).length + 7) / 8 := by omega
  unfold getBit ofConnMap
  rw [List.getElem?_map, List.getElem?_range byteInside]
  dsimp only [Option.map_some]
  rw [getLsbD_packBits (fun bit => connBit connMap _ (8 * (index / 8) + bit)) _ _
    (Nat.mod_lt _ (by decide))]
  simp [Nat.mod_lt, Nat.div_add_mod]

variable {connMap reachable} {row one : PeerIdVersion} {peerId : PeerId}

theorem connBit_of_rows {rows : List PeerIdVersion} {row column : Nat} {other : PeerIdVersion}
    (isRow : rows[row]? = some one) (isColumn : rows[column]? = some other) :
    connBit connMap rows (row * rows.length + column) =
      (connMap.lookup one.peerId).any fun info => other.peerId ∈ info.connectedPeers := by
  have inside : column < rows.length := (List.getElem?_eq_some_iff.mp isColumn).1
  unfold connBit
  rw [Nat.mul_comm, Nat.mul_add_div (by omega), Nat.div_eq_of_lt inside, Nat.add_zero,
    Nat.mul_add_mod, Nat.mod_eq_of_lt inside, isRow, isColumn]

/-- What the bitmap says of a row: the peers of the bitmap that the peer is connected with. -/
theorem getConnectedPeers_ofConnMap {row : Nat}
    (isRow : (allPeerIds connMap reachable)[row]? = some one) :
    (ofConnMap connMap reachable).getConnectedPeers row =
      .ok (collectPeers (((allPeerIds connMap reachable).map (·.peerId)).filter fun peerId =>
        (connMap.lookup one.peerId).any fun info => peerId ∈ info.connectedPeers)) := by
  have read : (ofConnMap connMap reachable).connectedFrom row 0 (allPeerIds connMap reachable) =
      .ok (((allPeerIds connMap reachable).map (·.peerId)).filter fun peerId =>
        (connMap.lookup one.peerId).any fun info => peerId ∈ info.connectedPeers) := by
    refine connectedFrom_eq fun column other isColumn => ?_
    have rowInside := (List.getElem?_eq_some_iff.mp isRow).1
    have columnInside := (List.getElem?_eq_some_iff.mp isColumn).1
    have square := Nat.mul_le_mul_right (allPeerIds connMap reachable).length rowInside
    rw [Nat.succ_mul] at square
    rw [Nat.zero_add]
    refine (getBit_ofConnMap connMap reachable ?_).trans ?_
    · exact Nat.lt_of_lt_of_le (Nat.add_lt_add_left columnInside _) square
    · rw [peerIds_ofConnMap, connBit_of_rows isRow isColumn]
  unfold getConnectedPeers
  rw [peerIds_ofConnMap, read]
  rfl

/-- A version stands for a peer if the peer is reachable and has it, or as 0 if a reachable peer is
connected with it. -/
theorem mem_rowVersions {version : Nat} :
    (peerId, version) ∈ rowVersions connMap reachable ↔
      (∃ info, connMap.lookup peerId = some info ∧ reachable peerId ∧ version = info.version) ∨
        version = 0 ∧ ∃ source info, connMap.lookup source = some info ∧ reachable source ∧
          peerId ∈ info.connectedPeers := by
  unfold rowVersions
  rw [List.mem_flatMap]
  constructor
  · rintro ⟨⟨source, info⟩, entry, inside⟩
    have found := AList.mem_lookup_iff.mpr entry
    by_cases reached : reachable source
    · rw [if_pos reached] at inside
      rcases List.mem_cons.mp inside with itself | named
      · cases itself
        exact .inl ⟨info, found, reached, rfl⟩
      · obtain ⟨other, connected, same⟩ := List.mem_map.mp named
        cases same
        exact .inr ⟨rfl, source, info, found, reached, connected⟩
    · rw [if_neg reached] at inside
      cases inside
  · rintro (⟨info, found, reached, rfl⟩ | ⟨rfl, source, info, found, reached, connected⟩)
    · refine ⟨⟨peerId, info⟩, AList.mem_lookup_iff.mp found, ?_⟩
      rw [if_pos reached]
      exact List.mem_cons_self ..
    · refine ⟨⟨source, info⟩, AList.mem_lookup_iff.mp found, ?_⟩
      rw [if_pos reached]
      exact List.mem_cons_of_mem _ (List.mem_map.mpr ⟨peerId, connected, rfl⟩)

theorem mem_allPeerIds :
    row ∈ allPeerIds connMap reachable ↔
      (∃ version, (row.peerId, version) ∈ rowVersions connMap reachable) ∧
        row.version = (((rowVersions connMap reachable).filter (·.1 = row.peerId)).map
          (·.2)).foldl max 0 := by
  unfold allPeerIds
  simp only [List.mem_map, mem_collectPeers]
  constructor
  · rintro ⟨peerId, ⟨⟨_, version⟩, listed, rfl⟩, rfl⟩
    exact ⟨⟨version, listed⟩, rfl⟩
  · rintro ⟨⟨version, listed⟩, highest⟩
    refine ⟨row.peerId, ⟨(row.peerId, version), listed, rfl⟩, ?_⟩
    rw [← highest]

theorem foldl_max_le_iff (values : List Nat) (start bound : Nat) :
    values.foldl max start ≤ bound ↔ start ≤ bound ∧ ∀ value ∈ values, value ≤ bound := by
  induction values generalizing start with
  | nil => simp
  | cons value values ih => simp [ih, and_assoc]

/-- A row has the largest version its peer is listed with. -/
theorem version_le_iff (isRow : row ∈ allPeerIds connMap reachable) (bound : Nat) :
    row.version ≤ bound ↔
      ∀ version, (row.peerId, version) ∈ rowVersions connMap reachable → version ≤ bound := by
  rw [(mem_allPeerIds.mp isRow).2, foldl_max_le_iff]
  simp

/-- The row of a reachable peer has the version of its connections. -/
theorem version_of_reachable {info : RouteConnInfo}
    (found : connMap.lookup peerId = some info) (reached : reachable peerId)
    (isRow : row ∈ allPeerIds connMap reachable) (itself : row.peerId = peerId) :
    row.version = info.version := by
  subst itself
  refine Nat.le_antisymm ((version_le_iff isRow _).mpr fun version listed => ?_)
    ((version_le_iff isRow _).mp (Nat.le_refl _) _
      (mem_rowVersions.mpr (.inl ⟨info, found, reached, rfl⟩)))
  rcases mem_rowVersions.mp listed with ⟨other, again, -, rfl⟩ | ⟨rfl, -⟩
  · rw [found] at again
    cases again
    exact Nat.le_refl _
  · exact Nat.zero_le _

/-- A row of a version above 0 is that of a reachable peer. -/
theorem reachable_of_version (isRow : row ∈ allPeerIds connMap reachable)
    (positive : 1 ≤ row.version) :
    ∃ info, connMap.lookup row.peerId = some info ∧ reachable row.peerId := by
  by_contra absent
  have zero : row.version ≤ 0 := (version_le_iff isRow 0).mpr fun version listed => by
    rcases mem_rowVersions.mp listed with ⟨info, found, reached, -⟩ | ⟨rfl, -⟩
    · exact absurd ⟨info, found, reached⟩ absent
    exact Nat.le_refl 0
  omega

theorem exists_row {version : Nat} (listed : (peerId, version) ∈ rowVersions connMap reachable) :
    ∃ row ∈ allPeerIds connMap reachable, row.peerId = peerId :=
  ⟨⟨peerId, (((rowVersions connMap reachable).filter (·.1 = peerId)).map (·.2)).foldl max 0⟩,
    mem_allPeerIds.mpr ⟨⟨version, listed⟩, rfl⟩, rfl⟩

/-- A reachable peer's row names exactly the peers it is connected with. -/
theorem getConnectedPeers_of_reachable {info : RouteConnInfo}
    (found : connMap.lookup peerId = some info) (reached : reachable peerId) {row : Nat}
    (isRow : (allPeerIds connMap reachable)[row]? = some one) (itself : one.peerId = peerId) :
    (ofConnMap connMap reachable).getConnectedPeers row =
      .ok (collectPeers info.connectedPeers) := by
  subst itself
  rw [getConnectedPeers_ofConnMap isRow, found]
  refine congrArg Except.ok (collectPeers_congr fun other => ?_)
  rw [List.mem_filter, Option.any_some, decide_eq_true_eq, and_iff_right_iff_imp]
  intro connected
  -- whoever is connected with a reachable peer has a row of its own
  obtain ⟨listed, isListed, same⟩ :=
    exists_row (mem_rowVersions.mpr (.inr ⟨rfl, one.peerId, info, found, reached, connected⟩))
  exact List.mem_map.mpr ⟨listed, isListed, same⟩

theorem mem_rows_ofConnMap {connectedPeers : List PeerId} :
    (row, connectedPeers) ∈ (ConnInfo.connBitmap (ofConnMap connMap reachable)).rows ↔
      ∃ index, (allPeerIds connMap reachable)[index]? = some row ∧
        (ofConnMap connMap reachable).getConnectedPeers index = .ok connectedPeers := by
  simp only [ConnInfo.rows, peerIds_ofConnMap, List.mem_map, Prod.exists,
    List.mem_zipIdx_iff_getElem?, Prod.mk.injEq]
  constructor
  · rintro ⟨one, index, isRow, rfl, read⟩
    rw [getConnectedPeers_ofConnMap isRow] at read
    exact ⟨index, isRow, read ▸ getConnectedPeers_ofConnMap isRow⟩
  · rintro ⟨index, isRow, read⟩
    exact ⟨row, index, isRow, rfl, by rw [read]; rfl⟩

end Rows

/-! ## The receiver -/

variable (connMap : AList fun _ : PeerId => RouteConnInfo) (reachable : PeerId → Bool)

/-- The cached bitmap has all the bits of its rows. -/
theorem inBounds_ofConnMap : (ConnInfo.connBitmap (ofConnMap connMap reachable)).InBounds := by
  unfold ConnInfo.InBounds
  dsimp only
  rw [peerIds_ofConnMap]
  unfold ofConnMap
  rw [List.length_map, List.length_range]
  omega

variable {peerId : PeerId}

/-- The rows of a version above 0 are those of reachable peers. -/
theorem mem_connSubjects_ofConnMap {entry : RouteConnInfo} :
    (peerId, entry) ∈ (RouteUpdate.connInfo (.connBitmap
        (ofConnMap connMap reachable))).connSubjects ∧ 1 ≤ entry.version ↔
      ∃ info, connMap.lookup peerId = some info ∧ reachable peerId ∧ 1 ≤ info.version ∧
        entry = ⟨collectPeers info.connectedPeers, info.version, 0⟩ := by
  simp only [RouteUpdate.connSubjects, List.mem_map, Prod.exists, mem_rows_ofConnMap, Prod.mk.injEq]
  constructor
  · rintro ⟨⟨row, connectedPeers, ⟨index, isRow, read⟩, rfl, rfl⟩, positive⟩
    have listed := List.mem_of_getElem? isRow
    obtain ⟨info, found, reached⟩ := reachable_of_version listed positive
    have version := version_of_reachable found reached listed rfl
    rw [getConnectedPeers_of_reachable found reached isRow rfl] at read
    cases read
    exact ⟨info, found, reached, version ▸ positive, by rw [version]⟩
  · rintro ⟨info, found, reached, positive, rfl⟩
    obtain ⟨row, listed, rfl⟩ := exists_row (mem_rowVersions.mpr (.inl ⟨info, found, reached, rfl⟩))
    obtain ⟨index, isRow⟩ := List.getElem?_of_mem listed
    refine ⟨⟨row, collectPeers info.connectedPeers, ⟨index, isRow, ?_⟩, rfl, ?_⟩, positive⟩
    · exact getConnectedPeers_of_reachable found reached isRow rfl
    · rw [version_of_reachable found reached listed rfl]

/-- The entries the bitmap offers to a receiver. -/
def offeredConns (now : Nat) : List (PeerId × RouteConnInfo) :=
  (RouteUpdate.connInfo (.connBitmap (ofConnMap connMap reachable))).connItems.map
    (Prod.map id (·.stamp now))

theorem mem_offeredConns {entry : RouteConnInfo} {now : Nat} :
    (peerId, entry) ∈ offeredConns connMap reachable now ∧ 1 ≤ entry.version ↔
      ∃ info, connMap.lookup peerId = some info ∧ reachable peerId ∧ 1 ≤ info.version ∧
        entry = ⟨collectPeers info.connectedPeers, info.version, now⟩ := by
  constructor
  · rintro ⟨offered, positive⟩
    obtain ⟨⟨_, item⟩, isItem, same⟩ := List.mem_map.mp offered
    cases same
    rcases mem_connItems isItem with subject | placeholder
    · obtain ⟨info, found, reached, above, rfl⟩ :=
        (mem_connSubjects_ofConnMap connMap reachable).mp ⟨subject, positive⟩
      exact ⟨info, found, reached, above, rfl⟩
    · subst placeholder
      exact absurd positive (Nat.not_succ_le_zero 0)
  · rintro ⟨info, found, reached, above, rfl⟩
    have subject := ((mem_connSubjects_ofConnMap connMap reachable).mpr
      ⟨info, found, reached, above, rfl⟩).1
    exact ⟨List.mem_map.mpr ⟨_, connSubjects_subset _ subject, rfl⟩, above⟩

/-- What a receiver without connections stores above version 0: the rows of the reachable peers. -/
theorem stored_ofConnMap {receiver after : SyncedRouteInfo} {details : Bytes} {now : Nat}
    (nothing : receiver.connMap = ∅)
    (applied : receiver.updateConnInfo details (.connBitmap (ofConnMap connMap reachable)) now =
      (.ok (), after)) {stored : RouteConnInfo} :
    after.connMap.lookup peerId = some stored ∧ 1 ≤ stored.version ↔
      ∃ info, connMap.lookup peerId = some info ∧ reachable peerId ∧ 1 ≤ info.version ∧
        stored = ⟨collectPeers info.connectedPeers, info.version, now⟩ := by
  have node : RouteNode.update ⟨0, 0, details⟩ receiver
      (.connInfo (.connBitmap (ofConnMap connMap reachable))) now = (.ok (), after) := applied
  have taken : after.connMap = offers (·.version) ∅ (offeredConns connMap reachable now) :=
    nothing ▸ (takes_update node).connMap
  rw [taken]
  have isRow : ∀ kept, (offers (·.version) ∅ (offeredConns connMap reachable now)).lookup peerId =
      some kept → 1 ≤ kept.version →
      ∃ info, connMap.lookup peerId = some info ∧ reachable peerId ∧ 1 ≤ info.version ∧
        kept = ⟨collectPeers info.connectedPeers, info.version, now⟩ := by
    intro kept last positive
    rcases lookup_offers_origin last with stored | ⟨offered, -⟩
    · cases stored
    exact (mem_offeredConns connMap reachable).mp ⟨offered, positive⟩
  constructor
  · rintro ⟨last, positive⟩
    exact isRow stored last positive
  · rintro ⟨info, found, reached, above, rfl⟩
    have offered := ((mem_offeredConns connMap reachable).mpr
      ⟨info, found, reached, above, Eq.refl (RouteConnInfo.mk _ _ now)⟩).1
    obtain ⟨kept, last, covers⟩ : ∃ kept, (offers (·.version) ∅
        (offeredConns connMap reachable now)).lookup peerId = some kept ∧
        RouteConnInfo.version ⟨collectPeers info.connectedPeers, info.version, now⟩ ≤
          kept.version := lookup_offers_covers offered
    -- the entry of the peer is a row of it, and it has only one
    obtain ⟨other, again, -, -, rfl⟩ := isRow kept last (Nat.le_trans above covers)
    rw [found] at again
    cases again
    exact ⟨last, above⟩

/-- The bitmap says of every reachable peer what the connection map says, under its version; and a
receiver without connections stores exactly those rows for the peers with a version above 0. -/
theorem conn_bitmap_round_trip (receiver : SyncedRouteInfo) (details : Bytes) (now : Nat) :
    (∀ peerId info, connMap.lookup peerId = some info → reachable peerId →
      (∃ row : Nat, (ofConnMap connMap reachable).peerIds[row]? = some ⟨peerId, info.version⟩) ∧
      ∀ (row : Nat) (version : Nat),
        (ofConnMap connMap reachable).peerIds[row]? = some ⟨peerId, version⟩ →
        version = info.version ∧
          (ofConnMap connMap reachable).getConnectedPeers row =
            .ok (collectPeers info.connectedPeers)) ∧
    ∃ after, SyncedRouteInfo.updateConnInfo { receiver with connMap := ∅ } details
        (.connBitmap (ofConnMap connMap reachable)) now = (.ok (), after) ∧
      ∀ peerId stored, after.connMap.lookup peerId = some stored ∧ 1 ≤ stored.version ↔
        ∃ info, connMap.lookup peerId = some info ∧ reachable peerId ∧ 1 ≤ info.version ∧
          stored = ⟨collectPeers info.connectedPeers, info.version, now⟩ := by
  constructor
  · intro peerId info found reached
    constructor
    · obtain ⟨row, listed, rfl⟩ :=
        exists_row (mem_rowVersions.mpr (.inl ⟨info, found, reached, rfl⟩))
      obtain ⟨index, isRow⟩ := List.getElem?_of_mem listed
      rw [← version_of_reachable found reached listed rfl]
      exact ⟨index, isRow⟩
    · intro row version isRow
      exact ⟨version_of_reachable found reached (List.mem_of_getElem? isRow) rfl,
        getConnectedPeers_of_reachable found reached isRow rfl⟩
  · have done := (updateConnInfo_ok_iff { receiver with connMap := ∅ } details
      (.connBitmap (ofConnMap connMap reachable)) now).mpr (inBounds_ofConnMap connMap reachable)
    refine ⟨_, Prod.ext done rfl, fun peerId stored => ?_⟩
    exact stored_ofConnMap connMap reachable rfl (Prod.ext done rfl)

end RouteConnBitmap

end EasyTier.Route
