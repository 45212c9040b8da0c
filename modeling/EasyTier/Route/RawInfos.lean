import EasyTier.Route.SyncRounds

/-! # Raw and decoded route records

Peer infos are kept twice: decoded, and as the bytes they came in, so that fields unknown to this
version survive. A sync sends the bytes where there are any, and records the decoded versions as
saved at the destination.
-/

namespace EasyTier.Route

open Data Semantics

/-- The protobuf encoding of peer infos. -/
structure InfoCodec where
  encode : RoutePeerInfo → Bytes
  decode : Bytes → Option RoutePeerInfo
  decode_encode : ∀ info, decode (encode info) = some info

/-- One hour, in nanoseconds. -/
def updatePeerInfoPeriod : Nat := 3600 * 10 ^ 9

/-- `try_update_new_peer_info`: whether the new info has to be stored, and how it looks then. -/
def tryUpdateNewPeerInfo (old new : RoutePeerInfo) (now : Nat) : Bool × RoutePeerInfo :=
  let needUpdatePeriodically :=
    if old.lastUpdate ≤ now then decide (updatePeerInfoPeriod < now - old.lastUpdate) else true
  let new := { new with version := old.version, lastUpdate := old.lastUpdate }
  if new ≠ old ∨ needUpdatePeriodically then (true, { new with version := new.version + 1 })
  else (false, new)

namespace SyncedRouteInfo

/-- `update_my_peer_info` for the content the own info has by now. -/
def updateMyPeerInfo (info : SyncedRouteInfo) (myPeerId : PeerId) (new : RoutePeerInfo)
    (now : Nat) :
    SyncedRouteInfo × Bool :=
  let old := info.peerInfos.lookup myPeerId
  let newVersion := (old.map (·.version)).getD 0 + 1
  let (needInsertNew, new) :=
    match old with
    | some old => tryUpdateNewPeerInfo old new now
    | none => (true, new)
  if needInsertNew then
    ({ info with
        peerInfos := info.peerInfos.insert myPeerId
          { new with version := newVersion, lastUpdate := now }
        version := info.version + 1 }, true)
  else (info, false)

/-- The items of `build_sync_route_raw_req`: the kept bytes, or a new encoding. -/
def buildSyncRouteRawReq (codec : InfoCodec) (info : SyncedRouteInfo) (items : List RoutePeerInfo) :
    List Bytes :=
  items.map fun item => (info.rawPeerInfos.lookup item.peerId).getD (codec.encode item)

end SyncedRouteInfo

/-! ## Runs -/

/-- The writes to the infos and their bytes. -/
inductive RecordEvent where
  | tick (time : Nat)
  /-- Infos received from a neighbour, with the bytes they were decoded from. -/
  | updatePeerInfos (dstPeerId : PeerId) (infos : List RoutePeerInfo) (raws : List Bytes)
  | updateMyPeerInfo (new : RoutePeerInfo)
  | fillEmptyPeerInfo (peerIds : List PeerId)
  | removePeers (peerIds : List PeerId)

structure RecordState where
  now : Nat
  synced : SyncedRouteInfo

/-- What does not change: the codec, the own ids and the default details of unknown peers. -/
structure RecordConfig where
  codec : InfoCodec
  myPeerId : PeerId
  myPeerRouteId : Nat
  defaultDetails : Bytes

namespace RecordState

/-- The step function; received bytes are those the infos were decoded from, and `remove_peers` does
nothing without peers. -/
def step (config : RecordConfig) (state : RecordState) : RecordEvent → Option RecordState
  | .tick time => if state.now ≤ time then some { state with now := time } else none
  | .updatePeerInfos dstPeerId infos raws =>
    if raws.map config.codec.decode = infos.map some then
      some { state with
        synced := (state.synced.updatePeerInfos config.myPeerId config.myPeerRouteId dstPeerId infos
          raws state.now).2 }
    else none
  | .updateMyPeerInfo new =>
    let new := { new with peerId := config.myPeerId, peerRouteId := config.myPeerRouteId }
    some { state with
      synced := (state.synced.updateMyPeerInfo config.myPeerId new state.now).1 }
  | .fillEmptyPeerInfo peerIds =>
    some { state with
      synced := state.synced.fillEmptyPeerInfo config.defaultDetails peerIds state.now }
  | .removePeers peerIds =>
    some (if peerIds.isEmpty then state
      else { state with synced := state.synced.removePeers peerIds })

end RecordState

def recordSystem (config : RecordConfig) : System RecordState RecordEvent :=
  .ofStep (· = { now := 0, synced := .empty }) (RecordState.step config)

/-! ## Agreement -/

/-- Bytes decode to an info, apart from the time of its update. -/
def InfoCodec.Represents (codec : InfoCodec) (raw : Bytes) (info : RoutePeerInfo) : Prop :=
  ∃ decoded, codec.decode raw = some decoded ∧ { decoded with lastUpdate := info.lastUpdate } = info

namespace SyncedRouteInfo

/-- Bytes are kept only of infos that are there, and represent them. -/
structure Agrees (codec : InfoCodec) (info : SyncedRouteInfo) : Prop where
  listed : ∀ peerId raw, info.rawPeerInfos.lookup peerId = some raw →
    ∃ stored, info.peerInfos.lookup peerId = some stored
  represents : ∀ peerId raw stored, info.rawPeerInfos.lookup peerId = some raw →
    info.peerInfos.lookup peerId = some stored → codec.Represents raw stored

variable {codec : InfoCodec} {info : SyncedRouteInfo}

theorem Agrees.empty (codec : InfoCodec) : Agrees codec .empty where
  listed := fun peerId raw found => by simp [SyncedRouteInfo.empty] at found
  represents := fun peerId raw stored found => by simp [SyncedRouteInfo.empty] at found

section

variable (agrees : info.Agrees codec)
include agrees

theorem Agrees.incVersion (changed : Bool) : (info.incVersion changed).Agrees codec := by
  cases changed <;> exact ⟨agrees.listed, agrees.represents⟩

/-- An info and the bytes it was decoded from are stored together. -/
theorem Agrees.insertBoth {new : RoutePeerInfo} {raw : Bytes}
    (decodes : codec.decode raw = some new) (now : Nat) :
    Agrees codec { info with
      rawPeerInfos := info.rawPeerInfos.insert new.peerId raw
      peerInfos := info.peerInfos.insert new.peerId { new with lastUpdate := now } } := by
  constructor
  · intro peerId kept found
    simp only [lookup_insert_eq] at found ⊢
    split
    · exact ⟨_, rfl⟩
    · rename_i other
      rw [if_neg other] at found
      exact agrees.listed peerId kept found
  · intro peerId kept stored found isStored
    simp only [lookup_insert_eq] at found isStored
    split at found
    · rename_i same
      rw [if_pos same] at isStored
      cases found
      cases isStored
      exact ⟨new, decodes, rfl⟩
    · rename_i other
      rw [if_neg other] at isStored
      exact agrees.represents peerId kept stored found isStored

/-- An info without bytes is stored where there are none. -/
theorem Agrees.insertDecoded {peerId : PeerId}
    (absent : info.rawPeerInfos.lookup peerId = none) (new : RoutePeerInfo) :
    Agrees codec { info with peerInfos := info.peerInfos.insert peerId new } := by
  constructor
  · intro other kept found
    simp only [lookup_insert_eq]
    split
    · exact ⟨new, rfl⟩
    · exact agrees.listed other kept found
  · intro other kept stored found isStored
    simp only [lookup_insert_eq] at isStored
    split at isStored
    · rename_i same
      rw [same, absent] at found
      cases found
    · exact agrees.represents other kept stored found isStored

theorem Agrees.of_peerWrites {now : Nat} {infos : List RoutePeerInfo} {raws : List Bytes}
    {after : SyncedRouteInfo}
    (decode : raws.map codec.decode = infos.map some)
    (writes : PeerWrites now (infos.zip raws) info after) : after.Agrees codec := by
  induction writes with
  | refl => exact agrees
  | tail _ write ih =>
    cases write with
    | incVersion changed => exact ih.incVersion changed
    | @store new raw member newer =>
      refine ih.insertBoth ?_ now
      obtain ⟨index, bound, isPair⟩ := List.getElem_of_mem member
      simp only [List.getElem_zip, Prod.mk.injEq] at isPair
      have decoded := congrArg (·[index]?) decode
      simp only [List.length_zip, Nat.lt_min] at bound
      simpa [bound.1, bound.2, isPair.1, isPair.2] using decoded

theorem Agrees.raw_none {peerId : PeerId}
    (absent : peerId ∉ info.peerInfos) : info.rawPeerInfos.lookup peerId = none := by
  cases kept : info.rawPeerInfos.lookup peerId with
  | none => rfl
  | some raw =>
    obtain ⟨stored, found⟩ := agrees.listed peerId raw kept
    rw [AList.lookup_eq_none.mpr absent] at found
    cases found

theorem Agrees.of_connWrites {details : Bytes} {now : Nat} {after : SyncedRouteInfo}
    (writes : ConnWrites details now info after) :
    after.Agrees codec := by
  induction writes with
  | refl => exact agrees
  | tail _ write ih =>
    cases write with
    | incVersion changed => exact ih.incVersion changed
    | fill absent => exact ih.insertDecoded (ih.raw_none absent) _
    | conn peerId current => exact ⟨ih.listed, ih.represents⟩

omit agrees in
theorem lookup_eraseAll {Value : Type} (map : AList fun _ : PeerId => Value) (peerIds : List PeerId)
    (peerId : PeerId) :
    (eraseAll map peerIds).lookup peerId =
      if peerId ∈ peerIds then none else map.lookup peerId := by
  induction peerIds generalizing map with
  | nil => rfl
  | cons first peerIds ih =>
    have step : (eraseAll map (first :: peerIds)).lookup peerId =
        (eraseAll (map.erase first) peerIds).lookup peerId := rfl
    rw [step, ih]
    by_cases same : peerId = first
    · subst same
      simp
    · simp [same]

theorem Agrees.removePeers (peerIds : List PeerId) : (info.removePeers peerIds).Agrees codec := by
  constructor
  · intro peerId raw kept
    simp only [SyncedRouteInfo.removePeers, lookup_eraseAll] at kept ⊢
    split at kept
    · cases kept
    rename_i stays
    rw [if_neg stays]
    exact agrees.listed peerId raw kept
  · intro peerId raw stored kept isStored
    simp only [SyncedRouteInfo.removePeers, lookup_eraseAll] at kept isStored
    split at kept
    · cases kept
    rename_i stays
    rw [if_neg stays] at isStored
    exact agrees.represents peerId raw stored kept isStored

/-- The own info is written without bytes, so there must be none. -/
theorem Agrees.updateMyPeerInfo {myPeerId : PeerId}
    (absent : info.rawPeerInfos.lookup myPeerId = none) (new : RoutePeerInfo) (now : Nat) :
    (info.updateMyPeerInfo myPeerId new now).1.Agrees codec := by
  have inserted : ∀ written : RoutePeerInfo, Agrees codec { info with
      peerInfos := info.peerInfos.insert myPeerId written
      version := info.version + 1 } := fun written =>
    ⟨(agrees.insertDecoded absent written).listed, (agrees.insertDecoded absent written).represents⟩
  unfold SyncedRouteInfo.updateMyPeerInfo
  dsimp only
  split
  · split
    · exact inserted _
    · exact agrees
  · exact inserted _

/-- What is sent for the stored infos carries their versions. -/
theorem Agrees.sends_versions {items : List RoutePeerInfo}
    (stored : ∀ item ∈ items, info.peerInfos.lookup item.peerId = some item) :
    (info.buildSyncRouteRawReq codec items).map (fun raw =>
      (codec.decode raw).map fun decoded => (decoded.peerId, decoded.version)) =
      (infoVersions items).map some := by
  simp only [buildSyncRouteRawReq, infoVersions, List.map_map]
  refine List.map_congr_left fun item member => ?_
  simp only [Function.comp_apply]
  cases kept : info.rawPeerInfos.lookup item.peerId with
  | none => simp [codec.decode_encode]
  | some raw =>
    obtain ⟨decoded, isDecoded, same⟩ :=
      agrees.represents item.peerId raw item kept (stored item member)
    rw [← same]
    simp [isDecoded]

end

end SyncedRouteInfo

/-- Where the own info is written, no bytes are kept of it. -/
def RecordState.Unshadowed (config : RecordConfig) (state : RecordState) : RecordEvent → Prop
  | .updateMyPeerInfo _ => state.synced.rawPeerInfos.lookup config.myPeerId = none
  | _ => True

instance (config : RecordConfig) (state : RecordState) (event : RecordEvent) :
    Decidable (state.Unshadowed config event) := by
  unfold RecordState.Unshadowed
  cases_type RecordEvent <;> infer_instance

theorem RecordState.agrees_step {config : RecordConfig} {before after : RecordState}
    {event : RecordEvent} (agrees : before.synced.Agrees config.codec)
    (unshadowed : before.Unshadowed config event) (steps : before.step config event = some after) :
    after.synced.Agrees config.codec := by
  cases event with
  | tick time =>
    simp only [step] at steps
    split at steps
    · cases steps
      exact agrees
    · cases steps
  | updatePeerInfos dstPeerId infos raws =>
    simp only [step] at steps
    split at steps
    · rename_i decode
      cases steps
      exact agrees.of_peerWrites decode (SyncedRouteInfo.peerWrites_updatePeerInfos _ _ _ _ _ _ _)
    · cases steps
  | updateMyPeerInfo new =>
    cases steps
    exact agrees.updateMyPeerInfo unshadowed _ _
  | fillEmptyPeerInfo peerIds =>
    cases steps
    exact agrees.of_connWrites (SyncedRouteInfo.connWrites_fillEmptyPeerInfo _ _)
  | removePeers peerIds =>
    cases steps
    split
    · exact agrees
    · exact agrees.removePeers peerIds

/-- In every run in which no bytes are kept of the own info where it is written, kept bytes decode
to the stored infos, and a sync sends the versions it records. -/
theorem records_agree (config : RecordConfig) (state : RecordState)
    (reached : (recordSystem config).ReachableUnder (RecordState.Unshadowed config) state) :
    (∀ peerId raw stored, state.synced.rawPeerInfos.lookup peerId = some raw →
      state.synced.peerInfos.lookup peerId = some stored → config.codec.Represents raw stored) ∧
    ∀ items : List RoutePeerInfo,
      (∀ item ∈ items, state.synced.peerInfos.lookup item.peerId = some item) →
      (state.synced.buildSyncRouteRawReq config.codec items).map (fun raw =>
        (config.codec.decode raw).map fun decoded => (decoded.peerId, decoded.version)) =
        (infoVersions items).map some := by
  have agrees : state.synced.Agrees config.codec := by
    refine reached.invariant (motive := fun state => state.synced.Agrees config.codec) ?_
      fun before event after agrees unshadowed steps =>
        RecordState.agrees_step agrees unshadowed steps
    rintro _ rfl
    exact .empty config.codec
  exact ⟨agrees.represents, fun items stored => agrees.sends_versions stored⟩

/-! ## A codec for concrete runs -/

/-- A number in unary. -/
def encodeUnary (number : Nat) : Bytes := List.replicate number 1#8 ++ [0#8]

def decodeUnary : Bytes → Option (Nat × Bytes)
  | [] => none
  | byte :: bytes =>
    if byte = 0#8 then some (0, bytes)
    else (decodeUnary bytes).map fun (number, rest) => (number + 1, rest)

theorem decodeUnary_encodeUnary (number : Nat) (rest : Bytes) :
    decodeUnary (encodeUnary number ++ rest) = some (number, rest) := by
  induction number with
  | zero => rfl
  | succ number ih =>
    have step : encodeUnary (number + 1) ++ rest = 1#8 :: (encodeUnary number ++ rest) := by
      simp [encodeUnary, List.replicate_succ]
    rw [step, decodeUnary, if_neg (by decide), ih]
    rfl

/-- The numbers of an info in unary, then its details. -/
def unaryCodec : InfoCodec where
  encode := fun info =>
    encodeUnary info.peerId ++ (encodeUnary info.peerRouteId ++ (encodeUnary info.version ++
      (encodeUnary info.avoidRelayData.toNat ++ (encodeUnary info.lastUpdate ++ info.details))))
  decode := fun bytes => do
    let (peerId, bytes) ← decodeUnary bytes
    let (peerRouteId, bytes) ← decodeUnary bytes
    let (version, bytes) ← decodeUnary bytes
    let (avoidRelayData, bytes) ← decodeUnary bytes
    let (lastUpdate, details) ← decodeUnary bytes
    pure { peerId, peerRouteId, version, avoidRelayData := avoidRelayData = 1, details, lastUpdate }
  decode_encode := by
    intro info
    cases info with
    | mk peerId peerRouteId version avoidRelayData details lastUpdate =>
      cases avoidRelayData <;> simp [decodeUnary_encodeUnary]

/-- Peer 1, whose own infos carry the route id 4. -/
def recordConfig : RecordConfig where
  codec := unaryCodec
  myPeerId := 1
  myPeerRouteId := 4
  defaultDetails := []

/-- An info of a peer in a version. -/
def describe (peerId peerRouteId version : Nat) : RoutePeerInfo :=
  { RoutePeerInfo.empty [] 0 with peerId, peerRouteId, version }

/-- An info about the node itself comes in with version 5, then the node writes its own: the bytes
stay behind, and a sync would send version 5 and record version 6. -/
theorem own_info_shadowed :
    ∃ state, (recordSystem recordConfig).Reachable state ∧
      (∃ raw stored, state.synced.rawPeerInfos.lookup 1 = some raw ∧
        state.synced.peerInfos.lookup 1 = some stored ∧ ¬unaryCodec.Represents raw stored) ∧
      ∃ item, state.synced.peerInfos.lookup 1 = some item ∧
        (state.synced.buildSyncRouteRawReq unaryCodec [item]).map (fun raw =>
          (unaryCodec.decode raw).map fun decoded => (decoded.peerId, decoded.version)) =
            [some (1, 5)] ∧ infoVersions [item] = [(1, 6)] := by
  refine System.exists_reachable { now := 0, synced := .empty }
    [.updatePeerInfos 2 [describe 1 4 5] [unaryCodec.encode (describe 1 4 5)],
      .updateMyPeerInfo (.empty [7#8] 0)]
    (fun state => state.synced.rawPeerInfos.lookup 1 = some (unaryCodec.encode (describe 1 4 5)) ∧
      state.synced.peerInfos.lookup 1 = some { describe 1 4 6 with details := [7#8] }) rfl
    (by decide +kernel) ?_
  rintro state _ _ ⟨isRaw, isStored⟩
  refine ⟨⟨_, _, isRaw, isStored, ?_⟩, _, isStored, ?_, rfl⟩
  · rintro ⟨decoded, isDecoded, same⟩
    rw [unaryCodec.decode_encode, Option.some.injEq] at isDecoded
    subst isDecoded
    revert same
    decide
  · have sent : (describe 1 4 6).peerId = 1 := rfl
    simp only [SyncedRouteInfo.buildSyncRouteRawReq, List.map_cons, List.map_nil, sent, isRaw,
      Option.getD_some, unaryCodec.decode_encode, Option.map_some]
    rfl

/-- Infos about another peer are kept in both forms, next to an own info without bytes. -/
theorem other_info_agrees :
    ∃ state, (recordSystem recordConfig).ReachableUnder
      (RecordState.Unshadowed recordConfig) state ∧
      state.synced.rawPeerInfos.lookup 3 = some (unaryCodec.encode (describe 3 8 2)) ∧
      ∃ stored, state.synced.peerInfos.lookup 3 = some stored ∧
        unaryCodec.Represents (unaryCodec.encode (describe 3 8 2)) stored := by
  refine System.exists_reachableUnder { now := 0, synced := .empty }
    [.updatePeerInfos 2 [describe 3 8 2] [unaryCodec.encode (describe 3 8 2)],
      .updateMyPeerInfo (.empty [7#8] 0)]
    (fun state => state.synced.rawPeerInfos.lookup 3 = some (unaryCodec.encode (describe 3 8 2)) ∧
      state.synced.peerInfos.lookup 3 = some (describe 3 8 2)) rfl (by decide +kernel) ?_
  rintro state reached ⟨isRaw, isStored⟩
  exact ⟨isRaw, _, isStored, (records_agree recordConfig state reached).1 3 _ _ isRaw isStored⟩

end EasyTier.Route
