import EasyTier.Route.SyncRounds

/-! # What a received sync may crash on

The parts of a sync request are as the sender made them: the bitmap may be too short for its rows,
and keys and values may be missing. Which requests are handled to their end does not depend on the
state they meet.
-/

namespace EasyTier.Route

open Semantics SyncState SyncRouteSession

namespace RouteConnBitmap

section

variable (bitmap : RouteConnBitmap)

theorem getBit_ok_iff (index : Nat) :
    (∃ isSet, bitmap.getBit index = .ok isSet) ↔ index / 8 < bitmap.bitmap.length := by
  unfold getBit
  cases found : bitmap.bitmap[index / 8]? with
  | none => simpa using List.getElem?_eq_none_iff.mp found
  | some byte => simpa using (List.getElem?_eq_some_iff.mp found).1

theorem connectedFrom_ok_iff (row index : Nat)
    (columns : List PeerIdVersion) :
    (∃ peerIds, bitmap.connectedFrom row index columns = .ok peerIds) ↔
      ∀ column < columns.length,
        (row * bitmap.peerIds.length + (index + column)) / 8 < bitmap.bitmap.length := by
  induction columns generalizing index with
  | nil => simp [connectedFrom]
  | cons first columns ih =>
    have here := bitmap.getBit_ok_iff (row * bitmap.peerIds.length + index)
    have rest := ih (index + 1)
    unfold connectedFrom
    cases bit : bitmap.getBit (row * bitmap.peerIds.length + index) with
    | error error =>
      rw [bit] at here
      constructor
      · rintro ⟨_, ⟨⟩⟩
      · intro inBounds
        obtain ⟨isSet, ⟨⟩⟩ := here.mpr (inBounds 0 (by simp))
    | ok isSet =>
      have inBounds := here.mp ⟨isSet, bit⟩
      have mapped : (∃ peerIds, (bitmap.connectedFrom row (index + 1) columns).map
          (fun rest => if isSet then first.peerId :: rest else rest) = .ok peerIds) ↔
          ∃ peerIds, bitmap.connectedFrom row (index + 1) columns = .ok peerIds := by
        cases bitmap.connectedFrom row (index + 1) columns <;> simp [Except.map]
      rw [mapped, rest]
      constructor
      · intro later column bound
        rcases Nat.eq_zero_or_pos column with rfl | positive
        · exact inBounds
        · have := later (column - 1) (by simp at bound; omega)
          rwa [show index + 1 + (column - 1) = index + column by omega] at this
      · intro all column bound
        have := all (column + 1) (by simp; omega)
        rwa [show index + (column + 1) = index + 1 + column by omega] at this

/-- A row can be read if the bitmap reaches to its end. -/
theorem getConnectedPeers_ok_iff (row : Nat) :
    (∃ peerIds, bitmap.getConnectedPeers row = .ok peerIds) ↔
      ∀ column < bitmap.peerIds.length,
        (row * bitmap.peerIds.length + column) / 8 < bitmap.bitmap.length := by
  have read := bitmap.connectedFrom_ok_iff row 0 bitmap.peerIds
  simp only [Nat.zero_add] at read
  rw [← read]
  unfold getConnectedPeers
  cases bitmap.connectedFrom row 0 bitmap.peerIds <;> simp [Except.map]

/-- All rows can be read if the square of the rows fits. -/
theorem all_rows_ok_iff :
    (∀ row < bitmap.peerIds.length, ∃ peerIds, bitmap.getConnectedPeers row = .ok peerIds) ↔
      bitmap.peerIds.length * bitmap.peerIds.length ≤ 8 * bitmap.bitmap.length := by
  simp only [getConnectedPeers_ok_iff]
  generalize bitmap.peerIds.length = rows
  constructor
  · intro all
    rcases Nat.eq_zero_or_pos rows with rfl | positive
    · omega
    · have last := all (rows - 1) (by omega) (rows - 1) (by omega)
      have square : (rows - 1) * rows + rows = rows * rows := by
        rw [← Nat.succ_mul, Nat.succ_eq_add_one, Nat.sub_add_cancel positive]
      omega
  · intro fits row rowBound column columnBound
    have square : (row + 1) * rows ≤ rows * rows := Nat.mul_le_mul_right rows rowBound
    rw [Nat.succ_mul] at square
    omega

end

end RouteConnBitmap

namespace SyncedRouteInfo

/-- The loop over the rows ends well if every row can be read. -/
theorem updateConnRowsFrom_ok_iff (bitmap : RouteConnBitmap) (details : Data.Bytes) (now : Nat)
    (info : SyncedRouteInfo) (changed : Bool) (row : Nat) (rows : List PeerIdVersion) :
    (∃ updated, (updateConnRowsFrom bitmap details now info changed row rows).1 = .ok updated) ↔
      ∀ next < rows.length, ∃ peerIds, bitmap.getConnectedPeers (row + next) = .ok peerIds := by
  induction rows generalizing info changed row with
  | nil => simp [updateConnRowsFrom]
  | cons first rows ih =>
    unfold updateConnRowsFrom
    cases read : bitmap.getConnectedPeers row with
    | error error =>
      constructor
      · rintro ⟨_, ⟨⟩⟩
      · intro all
        obtain ⟨peerIds, isRead⟩ := all 0 (by simp)
        rw [Nat.add_zero, read] at isRead
        cases isRead
    | ok peerIds =>
      rw [ih]
      constructor
      · intro later next bound
        rcases Nat.eq_zero_or_pos next with rfl | positive
        · exact ⟨peerIds, read⟩
        · have := later (next - 1) (by simp at bound; omega)
          rwa [show row + 1 + (next - 1) = row + next by omega] at this
      · intro all next bound
        have := all (next + 1) (by simp; omega)
        rwa [show row + (next + 1) = row + 1 + next by omega] at this

end SyncedRouteInfo

/-- The bitmap has the bits of all its rows; a list may be anything. -/
def ConnInfo.InBounds : ConnInfo → Prop
  | .connBitmap bitmap => bitmap.peerIds.length * bitmap.peerIds.length ≤ 8 * bitmap.bitmap.length
  | .connPeerList _ => True

/-- The item has a key, and a value unless it is the sender's own. -/
def ForeignNetworkInfo.Complete (item : ForeignNetworkInfo) (dstPeerId : PeerId) : Prop :=
  ∃ key, item.key = some key ∧ (key.peerId = dstPeerId ∨ item.value.isSome)

theorem updateConnInfo_ok_iff (info : SyncedRouteInfo) (details : Data.Bytes) (connInfo : ConnInfo)
    (now : Nat) : (info.updateConnInfo details connInfo now).1 = .ok () ↔ connInfo.InBounds := by
  cases connInfo with
  | connBitmap bitmap =>
    simp only [SyncedRouteInfo.updateConnInfo, SyncedRouteInfo.updateConnInfoWithBitmap,
      ConnInfo.InBounds]
    rw [← bitmap.all_rows_ok_iff]
    have looped := SyncedRouteInfo.updateConnRowsFrom_ok_iff bitmap details now
      (info.fillEmptyPeerInfo details (collectPeers (bitmap.peerIds.map (·.peerId))) now) false 0
    simp only [Nat.zero_add] at looped
    rw [← looped]
    split <;> rename_i ended <;> simp [ended]
  | connPeerList infos => simp [SyncedRouteInfo.updateConnInfo, ConnInfo.InBounds]

theorem saveForeignNetworks_ok_iff (dstPeerId : PeerId)
    (saved : AList fun _ : ForeignNetworkRouteInfoKey => Nat) (items : List ForeignNetworkInfo) :
    (saveForeignNetworks dstPeerId saved items).1 = .ok () ↔
      ∀ item ∈ items, item.Complete dstPeerId := by
  induction items generalizing saved with
  | nil => simp [saveForeignNetworks]
  | cons item items ih =>
    unfold saveForeignNetworks
    cases isKey : item.key with
    | none => simp [ForeignNetworkInfo.Complete, isKey]
    | some key =>
      by_cases own : key.peerId = dstPeerId
      · simp [own, ih, ForeignNetworkInfo.Complete, isKey]
      · cases isValue : item.value with
        | none => simp [own, ForeignNetworkInfo.Complete, isKey, isValue]
        | some entry => simp [own, ih, ForeignNetworkInfo.Complete, isKey, isValue]

theorem receiveConnInfo_ok_iff (config : SyncConfig) (state : SyncState) (connInfo : ConnInfo) :
    (state.receiveConnInfo config connInfo).1 = .ok () ↔ connInfo.InBounds := by
  rw [← updateConnInfo_ok_iff state.synced config.defaultDetails connInfo state.now]
  unfold receiveConnInfo
  split <;> rename_i ended <;> simp [ended]

/-- The connection info and the foreign networks of a request are handled to their end, in whatever
state, exactly if the bitmap is long enough and no needed key or value is missing. -/
theorem receiveSync_ok_iff (config : SyncConfig) (state : SyncState) (connInfo : Option ConnInfo)
    (foreignNetwork : Option (List ForeignNetworkInfo)) :
    (state.receiveSync config none connInfo foreignNetwork).1 = .ok () ↔
      (∀ info ∈ connInfo, info.InBounds) ∧
      ∀ infos ∈ foreignNetwork, ∀ item ∈ infos, item.Complete config.dstPeerId := by
  have foreign : ∀ (state : SyncState) (infos : List ForeignNetworkInfo),
      (state.receiveForeignNetwork config infos).1 = .ok () ↔
        ∀ item ∈ infos, item.Complete config.dstPeerId :=
    fun state infos => saveForeignNetworks_ok_iff config.dstPeerId _ infos
  have conn := receiveConnInfo_ok_iff config state
  cases connInfo with
  | none =>
    cases foreignNetwork with
    | none => simp [receiveSync, andThen]
    | some infos => simp [receiveSync, andThen, foreign]
  | some info =>
    cases ended : (state.receiveConnInfo config info).1 with
    | error error =>
      have broken : ¬info.InBounds := by simp [← conn info, ended]
      cases foreignNetwork <;> simp [receiveSync, andThen, ended, broken]
    | ok value =>
      have inBounds : info.InBounds := (conn info).mp ended
      cases foreignNetwork with
      | none => simp [receiveSync, andThen, ended, inBounds]
      | some infos => simp [receiveSync, andThen, ended, inBounds, foreign]

/-- Peer 1 with the neighbour 2. -/
def neighbourConfig : SyncConfig where
  myPeerId := 1
  myPeerRouteId := 0
  dstPeerId := 2
  defaultDetails := []
  supportsConnList := fun _ => true

/-- Once the session of the neighbour is admitted, a bitmap of one row without a byte is read past
its end, and the missing key of a foreign network is unwrapped. -/
theorem received_sync_panics :
    ∃ state, (syncSystem neighbourConfig).Reachable state ∧
      state.session.admitsInbound 9 true = some true ∧
      (state.receiveSync neighbourConfig none
        (some (.connBitmap { peerIds := [{ peerId := 3, version := 1 }], bitmap := [] })) none).1 =
          .error (.route .indexOutOfBounds) ∧
      (state.receiveSync neighbourConfig none none (some [{ key := none, value := none }])).1 =
        .error .unwrapNone := by
  exact System.exists_reachable (.initial 5) [.inbound 9 true none none none] _ ⟨5, rfl⟩
    (by decide +kernel) fun _ _ _ => id

end EasyTier.Route
