import EasyTier.Route.NextHop

/-! # Forwarding hop by hop is free of loops

Every peer builds its own table from the same snapshot and sends a packet on to its own next hop. A
peer that is suppressed has edges only in its own graph, and ties are broken differently everywhere;
still each hop gets nearer to the destination, measured in the weights the policy compares first.
-/

namespace EasyTier.Route

open Data EasyTier.Graph OspfRouteSnapshot VersionedMap

namespace OspfRouteTable

/-! ## The next hops of a new table -/

variable {dst myPeerId : PeerId}

theorem getNextHop_eq_some {table : OspfRouteTable} {info : OspfNextHopInfo} :
    table.getNextHop dst = some info ↔
      dst ∉ table.suppressedPeerIds ∧ table.nextHopMap.lookup dst = some info ∧
        table.nextHopMapVersion ≤ info.version := by
  unfold getNextHop getTopologyNextHop
  split <;> simp_all [Option.filter_eq_some_iff]

@[simp] theorem getNextHop_cleanExpiredRouteInfo (table : OspfRouteTable) (dst : PeerId) :
    table.cleanExpiredRouteInfo.getNextHop dst = table.getNextHop dst := by
  ext info
  rw [getNextHop_eq_some, getNextHop_eq_some]
  simp only [cleanExpiredRouteInfo, lookup_retain_iff, decide_eq_true_eq]
  constructor
  · exact fun ⟨visible, ⟨stored, _⟩, current⟩ => ⟨visible, stored, current⟩
  · exact fun ⟨visible, stored, current⟩ => ⟨visible, ⟨stored, current⟩, current⟩

@[simp] theorem getNextHop_insertPeerInfos (table : OspfRouteTable) (snapshot : OspfRouteSnapshot)
    (dst : PeerId) : (table.insertPeerInfos snapshot).getNextHop dst = table.getNextHop dst := rfl

@[simp] theorem mem_syncSuppressedPeerIds (table : OspfRouteTable) (snapshot : OspfRouteSnapshot)
    (peerId : PeerId) :
    peerId ∈ (table.syncSuppressedPeerIds snapshot).suppressedPeerIds ↔
      peerId ∈ snapshot.suppressedPeerIds := by
  simp only [syncSuppressedPeerIds, List.mem_union_iff, List.mem_filter, decide_eq_true_eq]
  exact ⟨fun either => either.elim id And.right, .inl⟩

variable {costs : AList fun _ : PeerId => Nat} {nextHops : AList fun _ : PeerId => PeerId × Nat}

theorem lookup_nextHopInfos {version : Nat} {info : OspfNextHopInfo}
    (found : (offers (·.version) ∅ (nextHopInfos costs nextHops version)).lookup dst =
      some info) :
    nextHops.lookup dst = some (info.nextHopPeerId, info.pathLen) ∧ info.version = version ∧
      info.pathLatency = (costs.lookup dst).getD 0 % avoidRelayCost := by
  rcases lookup_offers_origin found with before | ⟨offered, _⟩
  · cases before
  · obtain ⟨entry, isEntry, same⟩ := List.mem_map.mp offered
    cases same
    exact ⟨AList.mem_lookup_iff.mpr isEntry, rfl, rfl⟩

theorem lookup_offers_nextHopInfos (map : AList fun _ : PeerId => OspfNextHopInfo)
    {hop : PeerId × Nat} (found : nextHops.lookup dst = some hop) (version : Nat) :
    ∃ info, (offers (·.version) map (nextHopInfos costs nextHops version)).lookup dst =
      some info ∧ version ≤ info.version := by
  have isEntry : (⟨dst, hop⟩ : Sigma fun _ => PeerId × Nat) ∈ nextHops.entries :=
    AList.mem_lookup_iff.mp found
  obtain ⟨info, stored, recent⟩ : ∃ info,
      (offers (·.version) map (nextHopInfos costs nextHops version)).lookup dst =
        some info ∧ _ :=
    lookup_offers_covers (List.mem_map_of_mem isEntry)
  exact ⟨info, stored, recent⟩

theorem lookup_nextHopInfos_complete {hop : PeerId × Nat}
    (found : nextHops.lookup dst = some hop) (version : Nat) :
    ∃ info, (offers (·.version) ∅ (nextHopInfos costs nextHops version)).lookup dst =
      some info ∧ info.nextHopPeerId = hop.1 ∧ info.version = version := by
  obtain ⟨info, stored, _⟩ := lookup_offers_nextHopInfos ∅ found version
  obtain ⟨again, current, _⟩ := lookup_nextHopInfos stored
  have same := Option.some.inj (found.symm.trans again)
  exact ⟨info, stored, by rw [same], current⟩

/-- The graph whose lightest paths give the first hops. -/
def searchedGraph (policy : NextHopPolicy) (paths : PathLengths PeerId)
    (graph : WeightedGraph PeerId) (startNode : PeerId) : WeightedGraph PeerId :=
  match policy with
  | .leastHop => graph.shortestHops (paths.lengths (graph.reweight normalizeEdgeCost) startNode)
  | .leastCost => graph

variable (heap : MinHeap PeerId) (paths : PathLengths PeerId) (snapshot : OspfRouteSnapshot)
  (policy : NextHopPolicy) (costCalc : RouteCostCalculator)

/-- Either policy searches a graph for the cheapest paths. -/
theorem buildFromSnapshot_of_mem (table : OspfRouteTable)
    (isNode : myPeerId ∈ snapshot.graphPeers) :
    table.buildFromSnapshot heap paths myPeerId snapshot policy costCalc =
      (((table.syncSuppressedPeerIds snapshot).genNextHopMapWithLeastCost heap
        (searchedGraph policy paths (snapshot.buildPeerGraph costCalc myPeerId) myPeerId) myPeerId
        snapshot.version).insertPeerInfos snapshot).cleanExpiredRouteInfo := by
  unfold buildFromSnapshot buildPeerGraphFromSnapshot
  rw [if_pos isNode]
  cases policy with
  | leastHop =>
    have started : myPeerId ∈ (snapshot.buildPeerGraph costCalc myPeerId).nodes := isNode
    simp only [genNextHopMapWithLeastHop, started, not_true_eq_false, if_false, searchedGraph]
  | leastCost => rfl

theorem buildFromSnapshot_of_notMem (table : OspfRouteTable)
    (absent : myPeerId ∉ snapshot.graphPeers) :
    table.buildFromSnapshot heap paths myPeerId snapshot policy costCalc =
      ((table.syncSuppressedPeerIds snapshot).setVersionIfLarger
        snapshot.version).cleanExpiredRouteInfo := by
  unfold buildFromSnapshot buildPeerGraphFromSnapshot
  rw [if_neg absent]

theorem getNextHop_buildFromSnapshot (table : OspfRouteTable)
    (isNode : myPeerId ∈ snapshot.graphPeers) (dst : PeerId) :
    (table.buildFromSnapshot heap paths myPeerId snapshot policy costCalc).getNextHop dst =
      ((table.syncSuppressedPeerIds snapshot).genNextHopMapWithLeastCost heap
        (searchedGraph policy paths (snapshot.buildPeerGraph costCalc myPeerId) myPeerId) myPeerId
        snapshot.version).getNextHop dst := by
  rw [buildFromSnapshot_of_mem heap paths snapshot policy costCalc table isNode,
    getNextHop_cleanExpiredRouteInfo, getNextHop_insertPeerInfos]

theorem mem_searchedGraph (isNode : myPeerId ∈ snapshot.graphPeers) :
    myPeerId ∈ (searchedGraph policy paths (snapshot.buildPeerGraph costCalc myPeerId)
      myPeerId).nodes := by
  cases policy <;> exact isNode

/-- The next hop of a peer with a new table. -/
def freshNextHop (myPeerId dst : PeerId) : Option PeerId :=
  ((empty.buildFromSnapshot heap paths myPeerId snapshot policy costCalc).getNextHop dst).map
    (·.nextHopPeerId)

/-- The next hops of a new table are the first hops of the search. -/
theorem freshNextHop_eq_some {hop : PeerId} :
    freshNextHop heap paths snapshot policy costCalc myPeerId dst = some hop ↔
      myPeerId ∈ snapshot.graphPeers ∧ dst ∉ snapshot.suppressedPeerIds ∧
      ∃ length, (dijkstraWithFirstHop heap (searchedGraph policy paths
        (snapshot.buildPeerGraph costCalc myPeerId) myPeerId) myPeerId).2.lookup dst =
          some (hop, length) := by
  unfold freshNextHop
  by_cases isNode : myPeerId ∈ snapshot.graphPeers
  · rw [getNextHop_buildFromSnapshot heap paths snapshot policy costCalc empty isNode]
    have started := mem_searchedGraph paths snapshot policy costCalc isNode
    simp only [Option.map_eq_some_iff, getNextHop_eq_some, genNextHopMapWithLeastCost, started,
      not_true_eq_false, if_false, setVersionIfLarger, mem_syncSuppressedPeerIds, isNode, true_and]
    constructor
    · rintro ⟨info, ⟨visible, stored, _⟩, rfl⟩
      exact ⟨visible, info.pathLen, (lookup_nextHopInfos stored).1⟩
    · rintro ⟨visible, length, found⟩
      obtain ⟨info, stored, isHop, current⟩ := lookup_nextHopInfos_complete found snapshot.version
      exact ⟨info, ⟨visible, stored, by simp [current, syncSuppressedPeerIds, empty]⟩, isHop⟩
  · have unrouted : ∀ info, ¬((empty.buildFromSnapshot heap paths myPeerId snapshot policy
        costCalc).getNextHop dst = some info) := by
      intro info routed
      rw [buildFromSnapshot_of_notMem heap paths snapshot policy costCalc empty isNode,
        getNextHop_cleanExpiredRouteInfo, getNextHop_eq_some] at routed
      cases routed.2.1
    simp [isNode, unrouted]

end OspfRouteTable

open OspfRouteTable

/-! ## Shortest hops

Every walk from the start within the graph of shortest hops has least normalized weight, whatever
its cost, and every node that can be reached can be reached within that graph.
-/

section ShortestHops

variable {Node : Type*} {graph : WeightedGraph Node} {start : Node} {lengths : Node → Option Nat}
  {src dst : Node} {cost : Nat}

theorem mem_shortestHops :
    (dst, cost) ∈ (graph.shortestHops lengths).edges src ↔
      (dst, cost) ∈ graph.edges src ∧ ∃ length, lengths src = some length ∧
        lengths dst = some (length + normalizeEdgeCost cost) := by
  simp only [WeightedGraph.shortestHops, List.mem_filter]
  cases lengths src <;> cases lengths dst <;> simp [eq_comm]

theorem Walk.normalized {length : Nat} (walk : Walk (graph.shortestHops lengths).edges src dst cost)
    (isLength : lengths src = some length) :
    ∃ weight, Walk (graph.reweight normalizeEdgeCost).edges src dst weight ∧
      lengths dst = some (length + weight) := by
  induction walk generalizing length with
  | nil node => exact ⟨0, .nil node, isLength⟩
  | @cons src next dst cost rest edge tail ih =>
    obtain ⟨isEdge, same, isSame, isNext⟩ := mem_shortestHops.mp edge
    rw [isLength, Option.some.injEq] at isSame
    subst isSame
    obtain ⟨weight, walk, ends⟩ := ih isNext
    refine ⟨normalizeEdgeCost cost + weight, .cons (List.mem_map.mpr ⟨_, isEdge, rfl⟩) walk, ?_⟩
    rw [ends, Nat.add_assoc]

variable (measured : ∀ node length, lengths node = some length ↔
  Distance (graph.reweight normalizeEdgeCost).edges start node length)

include measured

theorem StartsVia.normalized {hop : Node}
    (via : StartsVia (graph.shortestHops lengths).edges start hop dst cost) :
    ∃ weight, Distance (graph.reweight normalizeEdgeCost).edges start dst weight ∧
      StartsVia (graph.reweight normalizeEdgeCost).edges start hop dst weight := by
  obtain ⟨first, rest, edge, tail, rfl⟩ := via
  obtain ⟨isEdge, length, isLength, isNext⟩ := mem_shortestHops.mp edge
  have atStart : length = 0 := ((measured start length).mp isLength).unique (distance_self _ _)
  obtain ⟨weight, walk, ends⟩ := Walk.normalized tail isNext
  refine ⟨_, (measured dst _).mp ends, normalizeEdgeCost first, weight,
    List.mem_map.mpr ⟨_, isEdge, rfl⟩, walk, ?_⟩
  omega

theorem Walk.along_shortestHops {weight length : Nat}
    (walk : Walk (graph.reweight normalizeEdgeCost).edges src dst weight)
    (isLength : lengths src = some length) (isLast : lengths dst = some (length + weight))
    (reached : Walk (graph.shortestHops lengths).edges start src cost) :
    ∃ total, Walk (graph.shortestHops lengths).edges start dst total := by
  induction walk generalizing length cost with
  | nil => exact ⟨cost, reached⟩
  | @cons src next dst weight rest edge tail ih =>
    obtain ⟨original, isEdge, same⟩ := List.mem_map.mp edge
    cases same
    have toSrc := (measured src length).mp isLength
    -- a shorter way to the next node would make the last one nearer as well
    obtain ⟨least, isLeast, bound⟩ := (toSrc.1.snoc edge).distance
    have toLast := ((measured dst _).mp isLast).2 (isLeast.1.append tail)
    have same : least = length + normalizeEdgeCost original.2 := by omega
    have toNext := (measured original.1 _).mpr (same ▸ isLeast)
    have hop := mem_shortestHops.mpr ⟨isEdge, length, isLength, toNext⟩
    exact ih toNext (by rw [isLast, Nat.add_assoc]) (reached.snoc hop)

end ShortestHops

/-! ## What one peer sees -/

/-- The weight a policy compares first. -/
def NextHopPolicy.measure : NextHopPolicy → Nat → Nat
  | .leastHop, weight => normalizeEdgeCost weight
  | .leastCost, weight => weight

/-- What the costs must be like: with least cost, an edge that costs nothing may close a loop. -/
def NextHopPolicy.Admits (costCalc : RouteCostCalculator) : NextHopPolicy → Prop
  | .leastHop => ∀ src dst, 0 ≤ (costCalc src dst).toInt
  | .leastCost => ∀ src dst, 0 < (costCalc src dst).toInt

/-- The graph of one peer, with the weights its policy compares first. -/
def seenBy (snapshot : OspfRouteSnapshot) (policy : NextHopPolicy) (costCalc : RouteCostCalculator)
    (viewer : PeerId) : Edges PeerId := fun src =>
  (snapshot.edgesFrom costCalc viewer src).map fun edge => (edge.1, policy.measure edge.2)

section View

variable {snapshot : OspfRouteSnapshot} {policy : NextHopPolicy} {costCalc : RouteCostCalculator}

theorem seenBy_positive (admits : policy.Admits costCalc) (viewer src dst : PeerId) (weight : Nat)
    (edge : (dst, weight) ∈ seenBy snapshot policy costCalc viewer src) : 0 < weight := by
  obtain ⟨⟨next, cost⟩, isEdge, same⟩ := List.mem_map.mp edge
  cases same
  cases policy with
  | leastHop =>
    simp only [NextHopPolicy.measure, normalizeEdgeCost]
    split <;> omega
  | leastCost =>
    have positive := admits src next
    have narrow := (costCalc src next).toInt_lt
    have isCost := (mem_edgesFrom.mp isEdge).2.2.2.2
    simp only [NextHopPolicy.measure, isCost, edgeCost]
    split <;> omega

/-- Away from the viewer all peers see the same edges, and the viewer may see more of its own. -/
theorem seenBy_shared (viewer other src : PeerId) (away : src ≠ viewer) :
    seenBy snapshot policy costCalc viewer src ⊆ seenBy snapshot policy costCalc other src := by
  refine List.map_subset _ fun ⟨dst, cost⟩ edge => ?_
  obtain ⟨isNode, suppressed, rest⟩ := mem_edgesFrom.mp edge
  exact mem_edgesFrom.mpr ⟨isNode, fun isSuppressed => absurd (suppressed isSuppressed) away, rest⟩

variable (heap : MinHeap PeerId) (paths : PathLengths PeerId) {viewer : PeerId}

section

variable (isNode : viewer ∈ snapshot.graphPeers)
include isNode

theorem buildPeerGraph_edges :
    (snapshot.buildPeerGraph costCalc viewer).edges = snapshot.edgesFrom costCalc viewer := by
  simp [buildPeerGraph, isNode]

theorem reweight_buildPeerGraph :
    ((snapshot.buildPeerGraph costCalc viewer).reweight policy.measure).edges =
      seenBy snapshot policy costCalc viewer := by
  funext src
  change ((snapshot.buildPeerGraph costCalc viewer).edges src).map _ = _
  rw [buildPeerGraph_edges isNode]
  rfl

omit isNode in
theorem reweight_leastCost (graph : WeightedGraph PeerId) :
    (graph.reweight NextHopPolicy.leastCost.measure).edges = graph.edges := by
  simp [WeightedGraph.reweight, NextHopPolicy.measure]

/-- The first hop of the search starts a way that is shortest in the graph of the peer. -/
theorem search_shortest {dst hop : PeerId} {length : Nat}
    (away : dst ≠ viewer)
    (found : (dijkstraWithFirstHop heap (searchedGraph policy paths
      (snapshot.buildPeerGraph costCalc viewer) viewer) viewer).2.lookup dst = some (hop, length)) :
    ∃ far, Distance (seenBy snapshot policy costCalc viewer) viewer dst far ∧
      StartsVia (seenBy snapshot policy costCalc viewer) viewer hop dst far := by
  have started := mem_searchedGraph paths snapshot policy costCalc isNode
  obtain ⟨score, isScore, via⟩ := dijkstra_first_hop heap _ started away found
  rw [← reweight_buildPeerGraph isNode]
  cases policy with
  | leastHop =>
    have measured := paths.exact
      ((snapshot.buildPeerGraph costCalc viewer).reweight normalizeEdgeCost) viewer isNode
    exact StartsVia.normalized measured via
  | leastCost =>
    rw [reweight_leastCost]
    exact ⟨score, isScore, via⟩

/-- Every peer that can be reached in the graph of a peer gets a first hop. -/
theorem search_complete {dst : PeerId} {weight : Nat}
    (walk : Walk (seenBy snapshot policy costCalc viewer) viewer dst weight) :
    ∃ hop, (dijkstraWithFirstHop heap (searchedGraph policy paths
      (snapshot.buildPeerGraph costCalc viewer) viewer) viewer).2.lookup dst = some hop := by
  have started := mem_searchedGraph paths snapshot policy costCalc isNode
  rw [← reweight_buildPeerGraph isNode] at walk
  suffices within : ∃ total, Walk (searchedGraph policy paths
      (snapshot.buildPeerGraph costCalc viewer) viewer).edges viewer dst total by
    obtain ⟨total, within⟩ := within
    exact dijkstra_first_hop_complete heap _ started within
  cases policy with
  | leastHop =>
    have measured := paths.exact
      ((snapshot.buildPeerGraph costCalc viewer).reweight normalizeEdgeCost) viewer isNode
    obtain ⟨least, isLeast, _⟩ := walk.distance
    have atStart := (measured viewer 0).mpr (distance_self _ viewer)
    refine Walk.along_shortestHops measured isLeast.1 atStart ?_ (.nil viewer)
    rw [Nat.zero_add]
    exact (measured dst least).mpr isLeast
  | leastCost =>
    rw [reweight_leastCost] at walk
    exact ⟨weight, walk⟩

end

end View

/-- Following the next hops of new tables built from one snapshot, every peer with its own way to
break ties, leads to the destination and passes no peer twice. -/
theorem next_hops_reach (heap : PeerId → MinHeap PeerId) (paths : PeerId → PathLengths PeerId)
    (snapshot : OspfRouteSnapshot) (policy : NextHopPolicy) (costCalc : RouteCostCalculator)
    (admits : policy.Admits costCalc) (source dst : PeerId)
    (routed : ((empty.buildFromSnapshot (heap source) (paths source) source snapshot
      policy costCalc).getNextHop dst).isSome) :
    ∃ path : List PeerId,
      (source :: path).IsChain (fun peer next =>
        ∃ info, (empty.buildFromSnapshot (heap peer) (paths peer) peer snapshot policy
          costCalc).getNextHop dst = some info ∧ info.nextHopPeerId = next) ∧
      (source :: path).getLast? = some dst ∧ (source :: path).Nodup := by
  let hop := fun peer =>
    freshNextHop (heap peer) (paths peer) snapshot policy costCalc peer dst
  have shortest : ∀ peer next, peer ≠ dst → hop peer = some next →
      ∃ far, Distance (seenBy snapshot policy costCalc peer) peer dst far ∧
        StartsVia (seenBy snapshot policy costCalc peer) peer next dst far := by
    intro peer next away hops
    obtain ⟨isNode, _, length, found⟩ :=
      (freshNextHop_eq_some (heap peer) (paths peer) snapshot policy costCalc).mp hops
    exact search_shortest (heap peer) (paths peer) isNode away.symm found
  obtain ⟨first, isFirst⟩ := Option.isSome_iff_exists.mp routed
  obtain ⟨_, visible, _⟩ :=
    (freshNextHop_eq_some (heap source) (paths source) snapshot policy costCalc).mp
      (Option.map_eq_some_iff.mpr ⟨first, isFirst, rfl⟩)
  have complete : ∀ peer weight, peer ≠ dst →
      Walk (seenBy snapshot policy costCalc peer) peer dst weight →
        ∃ next, hop peer = some next := by
    intro peer weight away walk
    have isNode : peer ∈ snapshot.graphPeers := by
      cases walk with
      | nil => exact absurd rfl away
      | cons edge _ =>
        obtain ⟨original, isEdge, _⟩ := List.mem_map.mp edge
        exact (mem_edgesFrom.mp isEdge).1
    obtain ⟨found, isFound⟩ := search_complete (heap peer) (paths peer) isNode walk
    exact ⟨found.1, (freshNextHop_eq_some (heap peer) (paths peer) snapshot policy
      costCalc).mpr ⟨isNode, visible, found.2, isFound⟩⟩
  have near : ∃ far, Distance (seenBy snapshot policy costCalc source) source dst far := by
    by_cases arrived : source = dst
    · subst arrived
      exact ⟨0, distance_self _ source⟩
    · obtain ⟨far, isFar, _⟩ := shortest source first.nextHopPeerId arrived
        (Option.map_eq_some_iff.mpr ⟨first, isFirst, rfl⟩)
      exact ⟨far, isFar⟩
  obtain ⟨far, isFar⟩ := near
  obtain ⟨path, chain, ends, nodup, _⟩ :=
    forwarding_reaches (seenBy_positive admits) seenBy_shared shortest complete isFar
  refine ⟨path, chain.imp fun peer next hops => ?_, ends, nodup⟩
  exact Option.map_eq_some_iff.mp hops

/-- Three peers in a line; the middle one would rather not relay, and a suppressed fourth one offers
a way around it. -/
def lineSnapshot : OspfRouteSnapshot where
  peerInfos := [1, 2, 3, 4].map fun peerId =>
    { peerId := peerId
      info := { RoutePeerInfo.empty [] 0 with
        peerId := peerId, version := 1, avoidRelayData := peerId = 2 } }
  connMap := [
    { peerId := 1, connectedPeers := [2, 4] }, { peerId := 2, connectedPeers := [1, 3] },
    { peerId := 3, connectedPeers := [2, 4] }, { peerId := 4, connectedPeers := [1, 3] }]
  suppressedPeerIds := [4]
  version := 7

theorem line_reaches_end :
    ∃ path : List PeerId,
      (1 :: path).IsChain (fun peer next =>
        ∃ info, (empty.buildFromSnapshot .leastFirst (.search .leastFirst) peer
          lineSnapshot .leastHop fun _ _ => 0).getNextHop 3 = some info ∧
            info.nextHopPeerId = next) ∧
      (1 :: path).getLast? = some 3 ∧ (1 :: path).Nodup :=
  next_hops_reach (fun _ => .leastFirst) (fun _ => .search .leastFirst) lineSnapshot .leastHop
    (fun _ _ => 0) (fun _ _ => Int.le_refl 0) 1 3 (by decide +kernel)

end EasyTier.Route
