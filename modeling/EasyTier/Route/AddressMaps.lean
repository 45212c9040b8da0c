import EasyTier.Route.CostOverflow
import EasyTier.Semantics.System

/-! # The address maps of the route table

Each build enters the addresses that the reachable peers announce, the nearest peer first. It
removes an entry only if its peer is no longer reachable, so an address that a peer gives up stays
with the peer until another one announces it.
-/

namespace EasyTier.Route

open Data EasyTier.Graph Semantics

abbrev Ipv4Addr := BitVec 32

abbrev Ipv6Addr := BitVec 128

/-- The addresses among the details of a peer's info. -/
structure AddressLayout where
  ipv4Addr : Bytes → Option Ipv4Addr
  ipv6Addr : Bytes → Option Ipv6Addr
  ipv6PublicAddrLease : Bytes → Option Ipv6Addr

/-- An order in which a hash map may be walked. -/
structure IterationOrder (Entry : Type*) where
  arrange : List Entry → List Entry
  perm : ∀ entries, (arrange entries).Perm entries

namespace OspfRouteTable

/-- `is_new_peer_better`, for the peer of an entry of the next hop map. -/
def isNewPeerBetter (table : OspfRouteTable) (version : Nat)
    (item : Sigma fun _ : PeerId => OspfNextHopInfo) (oldPeer : PeerIdVersion) : Bool :=
  if oldPeer.version < version then
    true
  else if item.1 = oldPeer.peerId then
    false
  else
    (table.getNextHop oldPeer.peerId).all (item.2.pathLen < ·.pathLen)

section Addresses

variable {Address : Type*} [DecidableEq Address]

/-- Enter one address of a peer. -/
def offerAddress (table : OspfRouteTable) (version : Nat)
    (item : Sigma fun _ : PeerId => OspfNextHopInfo)
    (map : AList fun _ : Address => PeerIdVersion) (address : Address) :
    AList fun _ : Address => PeerIdVersion :=
  if (map.lookup address).all (table.isNewPeerBetter version item) then
    map.insert address { peerId := item.1, version := version }
  else
    map

/-- The loop over the next hop map, for one of the address maps. -/
def offerAddresses (table : OspfRouteTable) (version : Nat) (announced : PeerId → List Address)
    (items : List (Sigma fun _ : PeerId => OspfNextHopInfo))
    (map : AList fun _ : Address => PeerIdVersion) : AList fun _ : Address => PeerIdVersion :=
  items.foldl (fun map item =>
    if item.2.version < version ∨ !table.peerReachable item.1 then
      map
    else
      (announced item.1).foldl (table.offerAddress version item) map) map

end Addresses

/-- The table between the computation of the next hops and the loop over them. -/
def routed (table : OspfRouteTable) (heap : MinHeap PeerId) (paths : PathLengths PeerId)
    (myPeerId : PeerId) (snapshot : OspfRouteSnapshot) (policy : NextHopPolicy)
    (costCalc : RouteCostCalculator) : OspfRouteTable :=
  let synced := table.syncSuppressedPeerIds snapshot
  let graph := snapshot.buildPeerGraph costCalc myPeerId
  if policy = .leastHop then
    synced.genNextHopMapWithLeastHop heap paths graph myPeerId snapshot.version
  else
    synced.genNextHopMapWithLeastCost heap graph myPeerId snapshot.version

end OspfRouteTable

open OspfRouteTable

namespace OspfRouteSnapshot

def ipv4Announced (layout : AddressLayout) (snapshot : OspfRouteSnapshot) (peerId : PeerId) :
    List Ipv4Addr :=
  ((snapshot.peerInfo peerId).bind fun info => layout.ipv4Addr info.details).toList

/-- A peer announces its own address and the one it leased. -/
def ipv6Announced (layout : AddressLayout) (snapshot : OspfRouteSnapshot) (peerId : PeerId) :
    List Ipv6Addr :=
  ((snapshot.peerInfo peerId).bind fun info => layout.ipv6Addr info.details).toList ++
    ((snapshot.peerInfo peerId).bind fun info => layout.ipv6PublicAddrLease info.details).toList

end OspfRouteSnapshot

/-- The route table with its address maps. -/
structure AddressTable where
  routes : OspfRouteTable
  ipv4PeerIdMap : AList fun _ : Ipv4Addr => PeerIdVersion
  ipv6PeerIdMap : AList fun _ : Ipv6Addr => PeerIdVersion

/-- What a call of `build_from_snapshot` is given, and how its searches and its loop break ties. -/
structure SnapshotBuild where
  snapshot : OspfRouteSnapshot
  policy : NextHopPolicy
  costCalc : RouteCostCalculator
  heap : MinHeap PeerId
  paths : PathLengths PeerId
  order : IterationOrder (Sigma fun _ : PeerId => OspfNextHopInfo)

namespace AddressTable

def empty : AddressTable where
  routes := .empty
  ipv4PeerIdMap := ∅
  ipv6PeerIdMap := ∅

def getPeerIdByIpv4 (table : AddressTable) (address : Ipv4Addr) : Option PeerId :=
  (table.ipv4PeerIdMap.lookup address).map (·.peerId)

def getPeerIdByIpv6 (table : AddressTable) (address : Ipv6Addr) : Option PeerId :=
  (table.ipv6PeerIdMap.lookup address).map (·.peerId)

/-- One address map through a build: without the local peer in the graph nothing is entered, and
`clean_expired_route_info` ends the build in any case. -/
def rebuildMap {Address : Type*} [DecidableEq Address] (table : AddressTable) (myPeerId : PeerId)
    (build : SnapshotBuild) (announced : PeerId → List Address)
    (map : AList fun _ : Address => PeerIdVersion) : AList fun _ : Address => PeerIdVersion :=
  let routed := table.routes.routed build.heap build.paths myPeerId build.snapshot build.policy
    build.costCalc
  let entered :=
    if myPeerId ∈ build.snapshot.graphPeers then
      routed.offerAddresses build.snapshot.version announced
        (build.order.arrange routed.nextHopMap.entries) map
    else
      map
  let cleaned := table.routes.buildFromSnapshot build.heap build.paths myPeerId build.snapshot
    build.policy build.costCalc
  retain (fun _ owner => cleaned.peerReachable owner.peerId) entered

/-- `build_from_snapshot`. The loop over the next hop map fills both maps; neither depends on the
other. -/
def buildFromSnapshot (layout : AddressLayout) (myPeerId : PeerId) (table : AddressTable)
    (build : SnapshotBuild) : AddressTable where
  routes := table.routes.buildFromSnapshot build.heap build.paths myPeerId build.snapshot
    build.policy build.costCalc
  ipv4PeerIdMap := table.rebuildMap myPeerId build (build.snapshot.ipv4Announced layout)
    table.ipv4PeerIdMap
  ipv6PeerIdMap := table.rebuildMap myPeerId build (build.snapshot.ipv6Announced layout)
    table.ipv6PeerIdMap

end AddressTable

/-! ## What the maps should hold -/

/-- The local peer can forward to a peer: a route over the links it sees leads there, and the peer
is not suppressed. -/
def Forwardable (snapshot : OspfRouteSnapshot) (myPeerId peerId : PeerId) : Prop :=
  myPeerId ∈ snapshot.graphPeers ∧ peerId ∉ snapshot.suppressedPeerIds ∧
    ∃ hops, SnapshotRoute snapshot myPeerId myPeerId peerId hops

section Purpose

variable {Address : Type*}

/-- The owners of the addresses are those of the snapshot, the nearest one if there are several. -/
structure Reflects (snapshot : OspfRouteSnapshot) (myPeerId : PeerId) (routes : OspfRouteTable)
    (announced : PeerId → List Address) (owner : Address → Option PeerId) : Prop where
  current : ∀ address peerId, owner address = some peerId →
    Forwardable snapshot myPeerId peerId ∧ address ∈ announced peerId
  complete : ∀ address peerId, Forwardable snapshot myPeerId peerId → address ∈ announced peerId →
    (owner address).isSome
  nearest : ∀ address peerId other, owner address = some peerId →
    Forwardable snapshot myPeerId other → address ∈ announced other →
    ∃ hop otherHop, routes.getNextHop peerId = some hop ∧ routes.getNextHop other = some otherHop ∧
      hop.pathLen ≤ otherHop.pathLen

/-- No address is given up by a peer that holds it and stays reachable, unless another reachable
peer announces it. -/
def NoneGivenUp (snapshot : OspfRouteSnapshot) (myPeerId : PeerId)
    (announced : PeerId → List Address) (owner : Address → Option PeerId) : Prop :=
  ∀ address peerId, owner address = some peerId → Forwardable snapshot myPeerId peerId →
    ∃ other, Forwardable snapshot myPeerId other ∧ address ∈ announced other

end Purpose

/-! ## Entering addresses -/

namespace OspfRouteTable

section Entering

variable {Address : Type*} {table : OspfRouteTable} {version : Nat}
  {before map : AList fun _ : Address => PeerIdVersion} {offered : PeerId → Address → Prop}

/-- After some offers, an address that was offered belongs to a nearest peer among those that
offered it, and every other address to whom it belonged before. -/
structure Settled [DecidableEq Address] (table : OspfRouteTable) (version : Nat)
    (before : AList fun _ : Address => PeerIdVersion) (offered : PeerId → Address → Prop)
    (map : AList fun _ : Address => PeerIdVersion) : Prop where
  reachable : ∀ peerId address, offered peerId address →
    ∃ hop, table.getNextHop peerId = some hop
  kept : ∀ address, (∀ peerId, ¬offered peerId address) → map.lookup address = before.lookup address
  chosen : ∀ peerId address, offered peerId address → ∃ nearest, offered nearest address ∧
    map.lookup address = some { peerId := nearest, version := version } ∧
    ∀ other, offered other address → ∃ hop otherHop, table.getNextHop nearest = some hop ∧
      table.getNextHop other = some otherHop ∧ hop.pathLen ≤ otherHop.pathLen

variable [DecidableEq Address]

theorem Settled.congr {others : PeerId → Address → Prop}
    (settled : table.Settled version before offered map)
    (same : ∀ peerId address, offered peerId address ↔ others peerId address) :
    table.Settled version before others map := by
  have equal : offered = others := by
    funext peerId address
    exact propext (same peerId address)
  rwa [equal] at settled

variable {address : Address}

theorem lookup_offerAddress_ne (table : OspfRouteTable) (version : Nat)
    (item : Sigma fun _ : PeerId => OspfNextHopInfo) (map : AList fun _ : Address => PeerIdVersion)
    {other : Address} (different : other ≠ address) :
    (table.offerAddress version item map address).lookup other = map.lookup other := by
  unfold offerAddress
  split
  · rw [lookup_insert_eq, if_neg different]
  · rfl

section

variable {item : Sigma fun _ : PeerId => OspfNextHopInfo}

/-- An address without a current owner goes to the peer that offers it. -/
theorem lookup_offerAddress_free
    (free : ∀ owner, map.lookup address = some owner → owner.version < version) :
    (table.offerAddress version item map address).lookup address =
      some { peerId := item.1, version := version } := by
  have better : (map.lookup address).all (table.isNewPeerBetter version item) = true := by
    cases found : map.lookup address with
    | none => rfl
    | some owner => simp [isNewPeerBetter, free owner found]
  rw [offerAddress, if_pos better, AList.lookup_insert]

/-- An address with a current owner goes to the peer that offers it if that one is nearer. -/
theorem lookup_offerAddress_contested
    {owner : PeerId} {hop : OspfNextHopInfo}
    (owned : map.lookup address = some { peerId := owner, version := version })
    (ownerHop : table.getNextHop owner = some hop)
    (itemHop : table.getNextHop item.1 = some item.2) :
    (table.offerAddress version item map address).lookup address =
      some { peerId := if item.2.pathLen < hop.pathLen then item.1 else owner
             version := version } := by
  have better : (map.lookup address).all (table.isNewPeerBetter version item) =
      decide (item.2.pathLen < hop.pathLen) := by
    rw [owned, Option.all_some, isNewPeerBetter, if_neg (Nat.lt_irrefl version)]
    by_cases same : item.1 = owner
    · rw [same, ownerHop] at itemHop
      simp [same, Option.some.inj itemHop]
    · rw [if_neg same, ownerHop, Option.all_some]
  rw [offerAddress, better]
  by_cases nearer : item.2.pathLen < hop.pathLen
  · simp [nearer]
  · simp [nearer, owned]

/-- One more offer. -/
theorem Settled.offerAddress
    (settled : table.Settled version before offered map)
    (older : ∀ address owner, before.lookup address = some owner → owner.version < version)
    (isHop : table.getNextHop item.1 = some item.2) (address : Address) :
    table.Settled version before
      (fun peerId other => peerId = item.1 ∧ other = address ∨ offered peerId other)
      (table.offerAddress version item map address) := by
  refine ⟨?_, ?_, ?_⟩
  · rintro peerId other (⟨rfl, _⟩ | earlier)
    · exact ⟨item.2, isHop⟩
    · exact settled.reachable peerId other earlier
  · intro other unoffered
    have different : other ≠ address := fun same => unoffered item.1 (.inl ⟨rfl, same⟩)
    rw [lookup_offerAddress_ne table version item map different]
    exact settled.kept other fun peerId earlier => unoffered peerId (.inr earlier)
  · intro peerId other offer
    by_cases different : other ≠ address
    · obtain ⟨nearest, among, owner, least⟩ := settled.chosen peerId other
        (offer.resolve_left fun same => different same.2)
      refine ⟨nearest, .inr among, ?_, fun farther competes => ?_⟩
      · rw [lookup_offerAddress_ne table version item map different, owner]
      · exact least farther (competes.resolve_left fun same => different same.2)
    · obtain rfl : other = address := not_not.mp different
      by_cases contested : ∃ rival, offered rival other
      · obtain ⟨rival, competes⟩ := contested
        obtain ⟨nearest, among, owned, least⟩ := settled.chosen rival other competes
        obtain ⟨hop, nearestHop⟩ := settled.reachable nearest other among
        refine ⟨_, ?_, lookup_offerAddress_contested owned nearestHop isHop, ?_⟩
        · split
          · exact .inl ⟨rfl, rfl⟩
          · exact .inr among
        · intro farther offers
          -- The new owner is no farther than the old one, nor than the peer that offered last.
          have ownerHop : ∃ ownerHop, table.getNextHop
              (if item.2.pathLen < hop.pathLen then item.1 else nearest) = some ownerHop ∧
              ownerHop.pathLen ≤ hop.pathLen ∧ ownerHop.pathLen ≤ item.2.pathLen := by
            split
            · exact ⟨item.2, isHop, by omega, Nat.le_refl _⟩
            · exact ⟨hop, nearestHop, Nat.le_refl _, by omega⟩
          obtain ⟨ownerHop, isOwnerHop, beforeHop, lastHop⟩ := ownerHop
          rcases offers with ⟨rfl, _⟩ | earlier
          · exact ⟨ownerHop, item.2, isOwnerHop, isHop, lastHop⟩
          · obtain ⟨known, fartherHop, isKnown, isFarther, closer⟩ := least farther earlier
            obtain rfl := Option.some.inj (nearestHop.symm.trans isKnown)
            exact ⟨ownerHop, fartherHop, isOwnerHop, isFarther, Nat.le_trans beforeHop closer⟩
      · have uncontested : ∀ rival, ¬offered rival other := fun rival offers =>
          contested ⟨rival, offers⟩
        refine ⟨item.1, .inl ⟨rfl, rfl⟩, lookup_offerAddress_free ?_, ?_⟩
        · rw [settled.kept other uncontested]
          exact older other
        · rintro farther (⟨rfl, _⟩ | earlier)
          · exact ⟨item.2, item.2, isHop, isHop, Nat.le_refl _⟩
          · exact absurd earlier (uncontested farther)

theorem Settled.foldl_offerAddress
    (older : ∀ address owner, before.lookup address = some owner → owner.version < version)
    (isHop : table.getNextHop item.1 = some item.2) (addresses : List Address)
    (settled : table.Settled version before offered map) :
    table.Settled version before
      (fun peerId address => peerId = item.1 ∧ address ∈ addresses ∨ offered peerId address)
      (addresses.foldl (table.offerAddress version item) map) := by
  induction addresses generalizing map offered with
  | nil => exact settled.congr fun peerId address => by simp
  | cons address addresses ih =>
    refine (ih (settled.offerAddress older isHop address)).congr fun peerId other => ?_
    simp only [List.mem_cons]
    tauto

end

/-- The whole loop. -/
theorem Settled.offerAddresses {announced : PeerId → List Address}
    (older : ∀ address owner, before.lookup address = some owner → owner.version < version)
    (current : version ≤ table.nextHopMapVersion)
    (items : List (Sigma fun _ : PeerId => OspfNextHopInfo))
    (stored : ∀ item ∈ items, table.nextHopMap.lookup item.1 = some item.2)
    (settled : table.Settled version before offered map) :
    table.Settled version before
      (fun peerId address => (∃ item ∈ items, item.1 = peerId ∧ table.peerReachable peerId ∧
        address ∈ announced peerId) ∨ offered peerId address)
      (table.offerAddresses version announced items map) := by
  induction items generalizing map offered with
  | nil => exact settled.congr fun peerId address => by simp
  | cons item items ih =>
    have storedRest : ∀ item ∈ items, table.nextHopMap.lookup item.1 = some item.2 :=
      fun other member => stored other (List.mem_cons_of_mem _ member)
    rw [offerAddresses, List.foldl_cons]
    by_cases reached : table.peerReachable item.1 = true
    · obtain ⟨hop, isHop⟩ := Option.isSome_iff_exists.mp reached
      obtain ⟨_, found, notExpired⟩ := getNextHop_eq_some.mp isHop
      have sameHop : hop = item.2 :=
        Option.some.inj (found.symm.trans (stored item List.mem_cons_self))
      subst sameHop
      have taken : ¬(item.2.version < version ∨ (!table.peerReachable item.1) = true) := by
        simp only [reached, Bool.not_true, Bool.false_eq_true, or_false]
        omega
      rw [if_neg taken]
      have entered := settled.foldl_offerAddress older isHop (announced item.1)
      refine (ih storedRest entered).congr fun peerId address => ?_
      rw [List.exists_mem_cons_iff, or_assoc, or_left_comm]
      refine or_congr_left ⟨?_, ?_⟩
      · rintro ⟨rfl, isAnnounced⟩
        exact ⟨rfl, reached, isAnnounced⟩
      · rintro ⟨rfl, _, isAnnounced⟩
        exact ⟨rfl, isAnnounced⟩
    · rw [if_pos (.inr (by simpa using reached))]
      refine (ih storedRest settled).congr fun peerId address => ?_
      rw [List.exists_mem_cons_iff, or_assoc]
      refine (or_iff_right ?_).symm
      rintro ⟨rfl, reachable, _⟩
      exact reached reachable

end Entering

/-! ## Reachable peers of a build -/

variable {table : OspfRouteTable} {heap : MinHeap PeerId} {paths : PathLengths PeerId}
  {myPeerId : PeerId} {snapshot : OspfRouteSnapshot} {policy : NextHopPolicy}
  {costCalc : RouteCostCalculator}

section

variable (isNode : myPeerId ∈ snapshot.graphPeers)
include isNode

theorem routed_eq : table.routed heap paths myPeerId snapshot policy costCalc =
      (table.syncSuppressedPeerIds snapshot).genNextHopMapWithLeastCost heap
        (searchedGraph policy paths (snapshot.buildPeerGraph costCalc myPeerId) myPeerId) myPeerId
        snapshot.version := by
  have started : myPeerId ∈ (snapshot.buildPeerGraph costCalc myPeerId).nodes := isNode
  cases policy with
  | leastHop => simp [routed, genNextHopMapWithLeastHop, started, searchedGraph]
  | leastCost => simp [routed, searchedGraph]

/-- The next hops a build ends with are those its loop sees. -/
theorem getNextHop_routed (peerId : PeerId) :
    (table.buildFromSnapshot heap paths myPeerId snapshot policy costCalc).getNextHop peerId =
      (table.routed heap paths myPeerId snapshot policy costCalc).getNextHop peerId := by
  rw [routed_eq isNode]
  exact getNextHop_buildFromSnapshot heap paths snapshot policy costCalc table isNode peerId

theorem nextHopMapVersion_routed :
    (table.routed heap paths myPeerId snapshot policy costCalc).nextHopMapVersion =
      max table.nextHopMapVersion snapshot.version := by
  have started := mem_searchedGraph paths snapshot policy costCalc isNode
  rw [routed_eq isNode]
  simp [genNextHopMapWithLeastCost, started, setVersionIfLarger, syncSuppressedPeerIds]

end

/-- A walk the local peer sees is a route. -/
theorem exists_route_of_walk {src dst : PeerId} {weight : Nat}
    (walk : Walk (seenBy snapshot policy costCalc myPeerId) src dst weight) :
    ∃ hops, SnapshotRoute snapshot myPeerId src dst hops := by
  induction walk with
  | nil peerId => exact ⟨[], .nil peerId⟩
  | cons edge _ ih =>
    obtain ⟨hops, route⟩ := ih
    obtain ⟨⟨next, cost⟩, isEdge, same⟩ := List.mem_map.mp edge
    cases same
    obtain ⟨known, forwards, connected, dstKnown, _⟩ := OspfRouteSnapshot.mem_edgesFrom.mp isEdge
    exact ⟨_, .cons ⟨known, forwards, connected, dstKnown⟩ route⟩

theorem exists_walk_of_route (policy : NextHopPolicy) (costCalc : RouteCostCalculator)
    {src dst : PeerId} {hops : List (PeerId × PeerId)}
    (route : SnapshotRoute snapshot myPeerId src dst hops) :
    ∃ weight, Walk (seenBy snapshot policy costCalc myPeerId) src dst weight := by
  induction route with
  | nil peerId => exact ⟨0, .nil peerId⟩
  | @cons src next _ _ link _ ih =>
    obtain ⟨weight, walk⟩ := ih
    have edge : (next, snapshot.edgeCost costCalc src next) ∈
        snapshot.edgesFrom costCalc myPeerId src :=
      OspfRouteSnapshot.mem_edgesFrom.mpr
        ⟨link.known, link.forwards, link.connected, link.dstKnown, rfl⟩
    exact ⟨_, .cons (List.mem_map_of_mem edge) walk⟩

/-- If all older next hops are outdated, exactly the peers that can be forwarded to are
reachable. -/
theorem peerReachable_buildFromSnapshot
    (outdated : ∀ peerId info, table.nextHopMap.lookup peerId = some info →
      info.version < snapshot.version)
    (current : table.nextHopMapVersion ≤ snapshot.version) (peerId : PeerId) :
    (table.buildFromSnapshot heap paths myPeerId snapshot policy costCalc).peerReachable peerId =
      true ↔ Forwardable snapshot myPeerId peerId := by
  rw [peerReachable, Option.isSome_iff_exists]
  by_cases isNode : myPeerId ∈ snapshot.graphPeers
  · have started := mem_searchedGraph paths snapshot policy costCalc isNode
    simp only [getNextHop_buildFromSnapshot heap paths snapshot policy costCalc table isNode,
      getNextHop_eq_some, genNextHopMapWithLeastCost, started, not_true_eq_false, if_false,
      setVersionIfLarger, mem_syncSuppressedPeerIds]
    constructor
    · rintro ⟨info, visible, stored, recent⟩
      refine ⟨isNode, visible, ?_⟩
      rcases VersionedMap.lookup_offers_origin stored with before | ⟨isOffered, _⟩
      · have older := outdated peerId info before
        omega
      · obtain ⟨entry, isEntry, same⟩ := List.mem_map.mp isOffered
        cases same
        by_cases isLocal : entry.1 = myPeerId
        · rw [isLocal]
          exact ⟨[], .nil myPeerId⟩
        · obtain ⟨_, least, _⟩ := search_shortest heap paths isNode isLocal
            (AList.mem_lookup_iff.mpr isEntry)
          exact exists_route_of_walk least.1
    · rintro ⟨_, visible, hops, route⟩
      obtain ⟨weight, walk⟩ := exists_walk_of_route policy costCalc route
      obtain ⟨hop, found⟩ := search_complete heap paths isNode walk
      obtain ⟨info, stored, recent⟩ := lookup_offers_nextHopInfos _ found snapshot.version
      exact ⟨info, visible, stored, max_le (Nat.le_trans current recent) recent⟩
  · refine ⟨fun routed => ?_, fun forwardable => absurd forwardable.1 isNode⟩
    obtain ⟨info, isHop⟩ := routed
    rw [buildFromSnapshot_of_notMem heap paths snapshot policy costCalc table isNode,
      getNextHop_cleanExpiredRouteInfo] at isHop
    obtain ⟨_, stored, recent⟩ := getNextHop_eq_some.mp isHop
    have older := outdated peerId info stored
    simp only [setVersionIfLarger] at recent
    omega

/-- A build adds next hops of its own version only. -/
theorem lookup_buildFromSnapshot_origin {peerId : PeerId} {info : OspfNextHopInfo}
    (stored : (table.buildFromSnapshot heap paths myPeerId snapshot policy
      costCalc).nextHopMap.lookup peerId = some info) :
    table.nextHopMap.lookup peerId = some info ∨ info.version = snapshot.version := by
  by_cases isNode : myPeerId ∈ snapshot.graphPeers
  · have started := mem_searchedGraph paths snapshot policy costCalc isNode
    rw [buildFromSnapshot_of_mem heap paths snapshot policy costCalc table isNode,
      genNextHopMapWithLeastCost, if_neg (not_not.mpr started)] at stored
    have seen := (lookup_retain_iff.mp stored).1
    rcases VersionedMap.lookup_offers_origin seen with before | ⟨isOffered, _⟩
    · exact .inl before
    · obtain ⟨entry, _, same⟩ := List.mem_map.mp isOffered
      cases same
      exact .inr rfl
  · rw [buildFromSnapshot_of_notMem heap paths snapshot policy costCalc table isNode] at stored
    exact .inl (lookup_retain_iff.mp stored).1

theorem nextHopMapVersion_buildFromSnapshot :
    (table.buildFromSnapshot heap paths myPeerId snapshot policy costCalc).nextHopMapVersion =
      max table.nextHopMapVersion snapshot.version := by
  by_cases isNode : myPeerId ∈ snapshot.graphPeers
  · rw [← nextHopMapVersion_routed isNode, routed_eq isNode,
      buildFromSnapshot_of_mem heap paths snapshot policy costCalc table isNode]
    rfl
  · rw [buildFromSnapshot_of_notMem heap paths snapshot policy costCalc table isNode]
    rfl

end OspfRouteTable

/-! ## One build -/

namespace AddressTable

section Build

variable {Address : Type*} [DecidableEq Address] {table : AddressTable} {myPeerId : PeerId}
  {build : SnapshotBuild} {announced : PeerId → List Address}
  {map : AList fun _ : Address => PeerIdVersion}

/-- Everything in the table is older than the snapshot. -/
structure Outdated (table : AddressTable) (map : AList fun _ : Address => PeerIdVersion)
    (version : Nat) : Prop where
  hops : ∀ peerId info, table.routes.nextHopMap.lookup peerId = some info → info.version < version
  current : table.routes.nextHopMapVersion ≤ version
  owners : ∀ address owner, map.lookup address = some owner → owner.version < version

variable (outdated : table.Outdated map build.snapshot.version)
include outdated

/-- What the loop leaves if the local peer has a node. -/
theorem settled_offerAddresses (isNode : myPeerId ∈ build.snapshot.graphPeers) :
    let routed := table.routes.routed build.heap build.paths myPeerId build.snapshot build.policy
      build.costCalc
    routed.Settled build.snapshot.version map
      (fun peerId address => Forwardable build.snapshot myPeerId peerId ∧
        address ∈ announced peerId)
      (routed.offerAddresses build.snapshot.version announced
        (build.order.arrange routed.nextHopMap.entries) map) := by
  intro routed
  have untouched : routed.Settled build.snapshot.version map (fun _ _ => False) map :=
    ⟨fun _ _ => False.elim, fun _ _ => rfl, fun _ _ => False.elim⟩
  have current : build.snapshot.version ≤ routed.nextHopMapVersion := by
    rw [nextHopMapVersion_routed isNode]
    exact Nat.le_max_right _ _
  have permuted := build.order.perm routed.nextHopMap.entries
  have stored : ∀ item ∈ build.order.arrange routed.nextHopMap.entries,
      routed.nextHopMap.lookup item.1 = some item.2 :=
    fun item member => AList.mem_lookup_iff.mpr (permuted.mem_iff.mp member)
  have reachable : ∀ peerId, routed.peerReachable peerId = true ↔
      Forwardable build.snapshot myPeerId peerId := by
    intro peerId
    rw [← peerReachable_buildFromSnapshot outdated.hops outdated.current peerId,
      peerReachable, peerReachable,
      getNextHop_routed isNode]
  refine (OspfRouteTable.Settled.offerAddresses outdated.owners current _ stored untouched).congr ?_
  intro peerId address
  rw [or_false, ← reachable peerId]
  refine ⟨fun ⟨_, _, _, offers⟩ => offers, fun offers => ?_⟩
  obtain ⟨hop, isHop⟩ := Option.isSome_iff_exists.mp offers.1
  have found := (getNextHop_eq_some.mp isHop).2.1
  exact ⟨⟨peerId, hop⟩, permuted.mem_iff.mpr (AList.mem_lookup_iff.mp found), rfl, offers⟩

theorem peerReachable_iff (peerId : PeerId) :
    (table.routes.buildFromSnapshot build.heap build.paths myPeerId build.snapshot build.policy
      build.costCalc).peerReachable peerId = true ↔ Forwardable build.snapshot myPeerId peerId :=
  peerReachable_buildFromSnapshot outdated.hops outdated.current peerId

variable {address : Address}

/-- An address that a reachable peer announces belongs to the nearest of them. -/
theorem lookup_rebuildMap_announced
    {peerId : PeerId} (forwardable : Forwardable build.snapshot myPeerId peerId)
    (isAnnounced : address ∈ announced peerId) :
    ∃ nearest, Forwardable build.snapshot myPeerId nearest ∧ address ∈ announced nearest ∧
      (table.rebuildMap myPeerId build announced map).lookup address =
        some { peerId := nearest, version := build.snapshot.version } ∧
      ∀ other, Forwardable build.snapshot myPeerId other → address ∈ announced other →
        ∃ hop otherHop,
          (table.routes.buildFromSnapshot build.heap build.paths myPeerId build.snapshot
            build.policy build.costCalc).getNextHop nearest = some hop ∧
          (table.routes.buildFromSnapshot build.heap build.paths myPeerId build.snapshot
            build.policy build.costCalc).getNextHop other = some otherHop ∧
          hop.pathLen ≤ otherHop.pathLen := by
  have isNode := forwardable.1
  obtain ⟨nearest, ⟨nearestForwardable, nearestAnnounces⟩, owned, least⟩ :=
    (settled_offerAddresses outdated isNode).chosen peerId address ⟨forwardable, isAnnounced⟩
  refine ⟨nearest, nearestForwardable, nearestAnnounces, ?_, ?_⟩
  · rw [rebuildMap, lookup_retain_iff, if_pos isNode]
    exact ⟨owned, (peerReachable_iff outdated nearest).mpr nearestForwardable⟩
  · intro other otherForwardable otherAnnounces
    rw [getNextHop_routed isNode, getNextHop_routed isNode]
    exact least other ⟨otherForwardable, otherAnnounces⟩

/-- An address that no reachable peer announces stays with a peer that is still reachable. -/
theorem lookup_rebuildMap_silent (silent : ∀ peerId, Forwardable build.snapshot myPeerId peerId →
      address ∉ announced peerId) (owner : PeerIdVersion) :
    (table.rebuildMap myPeerId build announced map).lookup address = some owner ↔
      map.lookup address = some owner ∧ Forwardable build.snapshot myPeerId owner.peerId := by
  rw [rebuildMap, lookup_retain_iff, peerReachable_iff outdated]
  by_cases isNode : myPeerId ∈ build.snapshot.graphPeers
  · rw [if_pos isNode, (settled_offerAddresses outdated isNode).kept address]
    exact fun peerId ⟨forwardable, isAnnounced⟩ => silent peerId forwardable isAnnounced
  · rw [if_neg isNode]

/-- The owner of an address announces it, or has kept it because no reachable peer does. -/
theorem lookup_rebuildMap_cases {owner : PeerIdVersion}
    (found : (table.rebuildMap myPeerId build announced map).lookup address = some owner) :
    Forwardable build.snapshot myPeerId owner.peerId ∧
      (owner.version = build.snapshot.version ∧ address ∈ announced owner.peerId ∨
        map.lookup address = some owner ∧
          ∀ other, Forwardable build.snapshot myPeerId other → address ∉ announced other) := by
  by_cases silent : ∀ other, Forwardable build.snapshot myPeerId other → address ∉ announced other
  · obtain ⟨before, forwardable⟩ := (lookup_rebuildMap_silent outdated silent owner).mp found
    exact ⟨forwardable, .inr ⟨before, silent⟩⟩
  · push Not at silent
    obtain ⟨other, forwardable, isAnnounced⟩ := silent
    obtain ⟨nearest, nearestForwardable, nearestAnnounces, isOwner, _⟩ :=
      lookup_rebuildMap_announced outdated forwardable isAnnounced
    obtain rfl := Option.some.inj (isOwner.symm.trans found)
    exact ⟨nearestForwardable, .inl ⟨rfl, nearestAnnounces⟩⟩

/-- A build makes a map reflect the snapshot exactly if no address in it was given up. -/
theorem reflects_rebuildMap : Reflects build.snapshot myPeerId
        (table.routes.buildFromSnapshot build.heap build.paths myPeerId build.snapshot build.policy
          build.costCalc) announced
        (fun address => ((table.rebuildMap myPeerId build announced map).lookup address).map
          (·.peerId)) ↔
      NoneGivenUp build.snapshot myPeerId announced
        (fun address => (map.lookup address).map (·.peerId)) := by
  constructor
  · intro reflects address peerId owned forwardable
    obtain ⟨owner, found, rfl⟩ := Option.map_eq_some_iff.mp owned
    by_contra silent
    push Not at silent
    have stays := (lookup_rebuildMap_silent outdated silent owner).mpr ⟨found, forwardable⟩
    have announces := (reflects.current address owner.peerId (by rw [stays, Option.map_some])).2
    exact silent owner.peerId forwardable announces
  · intro noneGivenUp
    refine ⟨?_, ?_, ?_⟩
    · intro address peerId owned
      obtain ⟨owner, found, rfl⟩ := Option.map_eq_some_iff.mp owned
      obtain ⟨forwardable, ⟨_, announces⟩ | ⟨before, silent⟩⟩ :=
        lookup_rebuildMap_cases outdated found
      · exact ⟨forwardable, announces⟩
      · obtain ⟨other, otherForwardable, otherAnnounces⟩ := noneGivenUp address owner.peerId
          (Option.map_eq_some_iff.mpr ⟨owner, before, rfl⟩) forwardable
        exact absurd otherAnnounces (silent other otherForwardable)
    · intro address peerId forwardable isAnnounced
      obtain ⟨nearest, _, _, isOwner, _⟩ :=
        lookup_rebuildMap_announced outdated forwardable isAnnounced
      rw [isOwner]
      rfl
    · intro address peerId other owned forwardable isAnnounced
      obtain ⟨owner, found, rfl⟩ := Option.map_eq_some_iff.mp owned
      obtain ⟨nearest, _, _, isOwner, least⟩ :=
        lookup_rebuildMap_announced outdated forwardable isAnnounced
      obtain rfl := Option.some.inj (isOwner.symm.trans found)
      exact least other forwardable isAnnounced

/-- A build enters no owner of a later version. -/
theorem version_rebuildMap {owner : PeerIdVersion}
    (found : (table.rebuildMap myPeerId build announced map).lookup address = some owner) :
    owner.version ≤ build.snapshot.version := by
  obtain ⟨_, ⟨own, _⟩ | ⟨before, _⟩⟩ := lookup_rebuildMap_cases outdated found
  · exact Nat.le_of_eq own
  · exact Nat.le_of_lt (outdated.owners address owner before)

omit outdated

end Build

end AddressTable

/-! ## Sequences of builds -/

/-- The table of a peer and the snapshot it was last built from. -/
structure TableHistory where
  table : AddressTable
  last : Option OspfRouteSnapshot

namespace TableHistory

def start : TableHistory where
  table := .empty
  last := none

/-- A build from a newer snapshot. -/
def build? (layout : AddressLayout) (myPeerId : PeerId) (history : TableHistory)
    (build : SnapshotBuild) : Option TableHistory :=
  if history.last.all (·.version < build.snapshot.version) then
    some { table := history.table.buildFromSnapshot layout myPeerId build
           last := some build.snapshot }
  else
    none

/-- The table under builds from newer and newer snapshots. -/
def system (layout : AddressLayout) (myPeerId : PeerId) : System TableHistory SnapshotBuild :=
  System.ofStep (· = start) (build? layout myPeerId)

/-- Nothing in the table is newer than the last snapshot. -/
structure Dated (history : TableHistory) : Prop where
  hops : ∀ peerId info, history.table.routes.nextHopMap.lookup peerId = some info →
    ∃ snapshot, history.last = some snapshot ∧ info.version ≤ snapshot.version
  current : history.table.routes.nextHopMapVersion ≤ (history.last.map (·.version)).getD 0
  ipv4Owners : ∀ address owner, history.table.ipv4PeerIdMap.lookup address = some owner →
    ∃ snapshot, history.last = some snapshot ∧ owner.version ≤ snapshot.version
  ipv6Owners : ∀ address owner, history.table.ipv6PeerIdMap.lookup address = some owner →
    ∃ snapshot, history.last = some snapshot ∧ owner.version ≤ snapshot.version

theorem Dated.start : start.Dated where
  hops := fun _ _ found => nomatch found
  current := Nat.le_refl 0
  ipv4Owners := fun _ _ found => nomatch found
  ipv6Owners := fun _ _ found => nomatch found

/-- All that a dated table holds is outdated for the next build. -/
theorem Dated.outdated {Address : Type*} [DecidableEq Address] {history : TableHistory}
    (dated : history.Dated) {map : AList fun _ : Address => PeerIdVersion}
    (owners : ∀ address owner, map.lookup address = some owner →
      ∃ snapshot, history.last = some snapshot ∧ owner.version ≤ snapshot.version)
    {version : Nat} (newer : history.last.all (·.version < version) = true) :
    history.table.Outdated map version := by
  have below : ∀ stored, (∃ snapshot, history.last = some snapshot ∧ stored ≤ snapshot.version) →
      stored < version := by
    rintro stored ⟨snapshot, isLast, notNewer⟩
    rw [isLast, Option.all_some, decide_eq_true_eq] at newer
    omega
  refine ⟨fun peerId info found => below _ (dated.hops peerId info found), ?_,
    fun address owner found => below _ (owners address owner found)⟩
  have current := dated.current
  cases isLast : history.last with
  | none =>
    rw [isLast] at current
    exact Nat.le_trans current (Nat.zero_le version)
  | some snapshot =>
    rw [isLast] at current
    exact Nat.le_of_lt (below _ ⟨snapshot, isLast, current⟩)

variable {layout : AddressLayout} {myPeerId : PeerId} {before after : TableHistory}

theorem build?_eq_some {build : SnapshotBuild} :
    build? layout myPeerId before build = some after ↔
      before.last.all (·.version < build.snapshot.version) = true ∧
      after = { table := before.table.buildFromSnapshot layout myPeerId build
                last := some build.snapshot } := by
  unfold build?
  split
  · rename_i newer
    simp [newer, eq_comm]
  · rename_i stale
    simp [stale]

theorem Dated.build {build : SnapshotBuild} (dated : before.Dated)
    (built : build? layout myPeerId before build = some after) : after.Dated := by
  obtain ⟨newer, rfl⟩ := build?_eq_some.mp built
  have outdated4 := dated.outdated dated.ipv4Owners newer
  have outdated6 := dated.outdated dated.ipv6Owners newer
  refine ⟨?_, ?_, ?_, ?_⟩
  · intro peerId info found
    refine ⟨build.snapshot, rfl, ?_⟩
    rcases lookup_buildFromSnapshot_origin found with earlier | own
    · exact Nat.le_of_lt (outdated4.hops peerId info earlier)
    · exact Nat.le_of_eq own
  · refine Nat.le_of_eq (nextHopMapVersion_buildFromSnapshot.trans ?_)
    exact Nat.max_eq_right outdated4.current
  · intro address owner found
    exact ⟨build.snapshot, rfl, AddressTable.version_rebuildMap outdated4 found⟩
  · intro address owner found
    exact ⟨build.snapshot, rfl, AddressTable.version_rebuildMap outdated6 found⟩

theorem dated_of_reachable {history : TableHistory}
    (reached : (system layout myPeerId).Reachable history) : history.Dated := by
  refine System.ReachableUnder.invariant (motive := Dated) ?_ ?_ reached
  · rintro _ rfl
    exact .start
  · intro before build after dated _ built
    exact dated.build built

/-- Both address maps reflect a snapshot. -/
def MapsReflect (layout : AddressLayout) (myPeerId : PeerId) (table : AddressTable)
    (snapshot : OspfRouteSnapshot) : Prop :=
  Reflects snapshot myPeerId table.routes (snapshot.ipv4Announced layout) table.getPeerIdByIpv4 ∧
    Reflects snapshot myPeerId table.routes (snapshot.ipv6Announced layout) table.getPeerIdByIpv6

/-- No address of the table is given up in a snapshot. -/
def KeepsAddresses (layout : AddressLayout) (myPeerId : PeerId) (table : AddressTable)
    (snapshot : OspfRouteSnapshot) : Prop :=
  NoneGivenUp snapshot myPeerId (snapshot.ipv4Announced layout) table.getPeerIdByIpv4 ∧
    NoneGivenUp snapshot myPeerId (snapshot.ipv6Announced layout) table.getPeerIdByIpv6

/-- After any sequence of builds, one more makes the maps reflect its snapshot exactly if no address
is given up there. -/
theorem mapsReflect_iff
    {build : SnapshotBuild} (reached : (system layout myPeerId).Reachable before)
    (built : (system layout myPeerId).step before build after) :
    MapsReflect layout myPeerId after.table build.snapshot ↔
      KeepsAddresses layout myPeerId before.table build.snapshot := by
  have dated := dated_of_reachable reached
  obtain ⟨newer, rfl⟩ := build?_eq_some.mp built
  exact and_congr (AddressTable.reflects_rebuildMap (dated.outdated dated.ipv4Owners newer))
    (AddressTable.reflects_rebuildMap (dated.outdated dated.ipv6Owners newer))

/-- The address maps reflect the last snapshot in every sequence of builds in which no address is
given up by a peer that stays reachable, and fail to after a build in which one is. -/
theorem address_maps_reflect_snapshot (layout : AddressLayout) (myPeerId : PeerId) :
    (∀ history, (system layout myPeerId).ReachableUnder
        (fun before build => KeepsAddresses layout myPeerId before.table build.snapshot) history →
      ∀ snapshot, history.last = some snapshot →
        MapsReflect layout myPeerId history.table snapshot) ∧
    ∀ before build after, (system layout myPeerId).Reachable before →
      (system layout myPeerId).step before build after →
      ¬KeepsAddresses layout myPeerId before.table build.snapshot →
      ¬MapsReflect layout myPeerId after.table build.snapshot := by
  refine ⟨?_, fun before build after reached built givenUp reflects =>
    givenUp ((mapsReflect_iff reached built).mp reflects)⟩
  intro history reached snapshot isLast
  cases reached with
  | start starts =>
    cases starts
    cases isLast
  | @step before _ build earlier keeps built =>
    have reflects := (mapsReflect_iff earlier.reachable built).mpr keeps
    obtain ⟨_, rfl⟩ := build?_eq_some.mp built
    cases isLast
    exact reflects

/-- Peer ids are `u32` values, and no link the local peer sees has a negative cost. -/
def Admitted (myPeerId : PeerId) (build : SnapshotBuild) : Prop :=
  (∀ peerId ∈ build.snapshot.graphPeers, peerId < 2 ^ 32) ∧
    ∀ src dst, SeesLink build.snapshot myPeerId src dst → 0 ≤ (build.costCalc src dst).toInt

/-- After any sequence of builds without negative costs, nothing has overflowed, the routes lead to
exactly the peers that can be forwarded to, and they start ways that are shortest in the last
snapshot by the policy of the last build. -/
theorem routes_shortest {build : SnapshotBuild}
    (reached : (system layout myPeerId).ReachableUnder
      (fun _ build => Admitted myPeerId build) before)
    (admitted : Admitted myPeerId build)
    (built : (system layout myPeerId).step before build after) (dst : PeerId) :
    (∀ hopHeap heap,
      (routeCosts 64 hopHeap heap myPeerId build.snapshot build.costCalc).isSome = true) ∧
    (after.table.routes.peerReachable dst = true ↔ Forwardable build.snapshot myPeerId dst) ∧
    ∀ info, after.table.routes.getNextHop dst = some info → dst ≠ myPeerId →
      ∃ far, Distance (seenBy build.snapshot build.policy build.costCalc myPeerId) myPeerId dst
        far ∧ StartsVia (seenBy build.snapshot build.policy build.costCalc myPeerId) myPeerId
          info.nextHopPeerId dst far := by
  refine ⟨?_, ?_⟩
  · by_cases isNode : myPeerId ∈ build.snapshot.graphPeers
    · exact (routeCosts_iff build.paths (by decide) isNode).mpr
        (costsFit_wide build.paths isNode admitted.1 admitted.2)
    · simp [routeCosts, isNode]
  obtain ⟨newer, rfl⟩ := build?_eq_some.mp built
  have dated := dated_of_reachable reached.reachable
  have outdated := dated.outdated dated.ipv4Owners newer
  have reachable : _ ↔ Forwardable build.snapshot myPeerId dst :=
    AddressTable.peerReachable_iff outdated dst
  refine ⟨reachable, fun info isHop away => ?_⟩
  have isNode := (reachable.mp (Option.isSome_of_eq_some isHop)).1
  have started := mem_searchedGraph build.paths build.snapshot build.policy build.costCalc isNode
  rw [AddressTable.buildFromSnapshot, getNextHop_buildFromSnapshot _ _ _ _ _ _ isNode,
    getNextHop_eq_some, genNextHopMapWithLeastCost, if_neg (not_not.mpr started)] at isHop
  rcases VersionedMap.lookup_offers_origin isHop.2.1 with stale | ⟨offered, _⟩
  · have older := outdated.hops dst info stale
    have recent := isHop.2.2
    simp only [setVersionIfLarger] at recent
    omega
  · obtain ⟨entry, isEntry, same⟩ := List.mem_map.mp offered
    cases same
    exact search_shortest build.heap build.paths isNode away (AList.mem_lookup_iff.mpr isEntry)

/-- The first byte of the details is an IPv4 address. -/
private def byteLayout : AddressLayout where
  ipv4Addr := fun details => details.head?.map fun byte => byte.setWidth 32
  ipv6Addr := fun _ => none
  ipv6PublicAddrLease := fun _ => none

/-- Peers 1 and 2 are connected, and peer 2 announces an address. -/
private def pairBuild (version : Nat) (address : Byte) : SnapshotBuild where
  snapshot :=
    { peerInfos := [(1, []), (2, [address])].map fun peer =>
        { peerId := peer.1
          info := { RoutePeerInfo.empty peer.2 0 with peerId := peer.1, version := 1 } }
      connMap := [{ peerId := 1, connectedPeers := [2] }, { peerId := 2, connectedPeers := [1] }]
      suppressedPeerIds := []
      version := version }
  policy := .leastHop
  costCalc := fun _ _ => 1
  heap := .leastFirst
  paths := .search .leastFirst
  order := ⟨id, fun entries => .refl entries⟩

theorem neighbour_forwardable : Forwardable (pairBuild 1 10).snapshot 1 2 := by
  have admitted : Admitted 1 (pairBuild 1 10) :=
    ⟨by decide +kernel, fun _ _ _ => show 0 ≤ (1 : Int32).toInt by decide⟩
  have started : (system byteLayout 1).ReachableUnder (fun _ build => Admitted 1 build) start :=
    .start rfl
  obtain ⟨_, forwardable, _⟩ := routes_shortest started admitted (build?_eq_some.mpr ⟨rfl, rfl⟩) 2
  exact forwardable.mp (by decide +kernel)

/-- Peer 2 keeps its address over two builds. -/
theorem kept_address_reflected :
    ∃ history, (system byteLayout 1).ReachableUnder
        (fun before build => KeepsAddresses byteLayout 1 before.table build.snapshot) history ∧
      history.table.getPeerIdByIpv4 10#32 = some 2 ∧
      MapsReflect byteLayout 1 history.table (pairBuild 2 10).snapshot := by
  have reflect := (address_maps_reflect_snapshot byteLayout 1).1
  have first : (system byteLayout 1).ReachableUnder
      (fun before build => KeepsAddresses byteLayout 1 before.table build.snapshot)
      { table := start.table.buildFromSnapshot byteLayout 1 (pairBuild 1 10)
        last := some (pairBuild 1 10).snapshot } := by
    refine .step (.start rfl) ⟨?_, ?_⟩ (build?_eq_some.mpr ⟨rfl, rfl⟩)
    · exact fun _ _ owned => nomatch owned
    · exact fun _ _ owned => nomatch owned
  obtain ⟨ipv4, ipv6⟩ := reflect _ first _ rfl
  -- Both snapshots have the same infos, so what the first build maps is announced in the second.
  have second : (system byteLayout 1).ReachableUnder
      (fun before build => KeepsAddresses byteLayout 1 before.table build.snapshot)
      { table := (start.table.buildFromSnapshot byteLayout 1 (pairBuild 1 10)).buildFromSnapshot
          byteLayout 1 (pairBuild 2 10)
        last := some (pairBuild 2 10).snapshot } := by
    refine .step first ⟨?_, ?_⟩ (build?_eq_some.mpr ⟨rfl, rfl⟩)
    · exact fun address peerId owned forwardable =>
        ⟨peerId, forwardable, (ipv4.current address peerId owned).2⟩
    · exact fun address peerId owned forwardable =>
        ⟨peerId, forwardable, (ipv6.current address peerId owned).2⟩
  exact ⟨_, second, by decide +kernel, reflect _ second _ rfl⟩

/-- Peer 2 changes its address from 10 to 20, and 10 still leads to it. -/
theorem former_address_stays_mapped :
    ∃ history, (system byteLayout 1).Reachable history ∧
      (∀ snapshot, history.last = some snapshot → snapshot.ipv4Announced byteLayout 2 = [20#32]) ∧
      history.table.getPeerIdByIpv4 10#32 = some 2 ∧
      ∃ snapshot, history.last = some snapshot ∧
        ¬MapsReflect byteLayout 1 history.table snapshot := by
  refine System.exists_reachable start [pairBuild 1 10, pairBuild 2 20]
    (fun history => history.table.getPeerIdByIpv4 10#32 = some 2 ∧
      history.last.map (fun snapshot => snapshot.ipv4Announced byteLayout 2) = some [20#32]) rfl
    (by decide +kernel) ?_
  rintro history _ _ ⟨mapped, announced⟩
  obtain ⟨snapshot, isLast, announces⟩ := Option.map_eq_some_iff.mp announced
  refine ⟨?_, mapped, snapshot, isLast, ?_⟩
  · intro other isOther
    rw [← announces, Option.some.inj (isLast.symm.trans isOther)]
  · intro reflects
    have stale := (reflects.1.current 10#32 2 mapped).2
    rw [announces] at stale
    exact absurd stale (by decide)

end TableHistory

end EasyTier.Route
