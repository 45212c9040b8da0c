import EasyTier.Route.CheckedSearch
import EasyTier.Route.LeastHop

/-! # The arithmetic of route costs

The peer center stores the latencies peers report as they are, and the cost calculator hands them to
the route table as `i32`. The table casts them to `usize`, adds a penalty for peers that avoid
relaying and sums them along paths. Here every one of these operations is checked, for any number
of bits of `usize`.
-/

namespace EasyTier.Route

open Data EasyTier.Graph OspfRouteTable

/-! ## The peer center -/

/-- `PeerInfoForGlobalMap`: the latencies to the direct peers. -/
abbrev PeerInfoForGlobalMap := AList fun _ : PeerId => Int32

abbrev GlobalPeerMap := AList fun _ : PeerId => PeerInfoForGlobalMap

/-- The reports a center holds. -/
structure PeerCenterServer where
  peerInfos : GlobalPeerMap

namespace PeerCenterServer

def new : PeerCenterServer := ⟨∅⟩

/-- `report_peers`: a report replaces the one before it and nothing in it is checked. -/
def reportPeers (server : PeerCenterServer) (myPeerId : PeerId) (peers : PeerInfoForGlobalMap) :
    PeerCenterServer :=
  ⟨server.peerInfos.insert myPeerId peers⟩

end PeerCenterServer

namespace GlobalPeerMap

def directedCost (map : GlobalPeerMap) (src dst : PeerId) : Option Int32 :=
  (map.lookup src).bind fun srcPeerInfo => srcPeerInfo.lookup dst

/-- `calculate_cost` of the peer center's calculator. -/
def calculateCost (map : GlobalPeerMap) : RouteCostCalculator := fun src dst =>
  match map.directedCost src dst with
  | some cost => cost
  | none => (map.directedCost dst src).getD 500

end GlobalPeerMap

/-! ## Checked operations -/

/-- `cost as usize`; a negative cost wraps. -/
def castCost (cost : Int32) : Option Nat :=
  if 0 ≤ cost.toInt then some cost.toInt.toNat else none

/-- An addition of `usize` values of some bits. -/
def checkedAdd (bits left right : Nat) : Option Nat :=
  if left + right < 2 ^ bits then some (left + right) else none

/-- The weight of an edge. -/
def edgeCostChecked (bits : Nat) (snapshot : OspfRouteSnapshot) (costCalc : RouteCostCalculator)
    (src dst : PeerId) : Option Nat :=
  (castCost (costCalc src dst)).bind fun cost =>
    if snapshot.getAvoidRelayData src then checkedAdd bits cost avoidRelayCost else some cost

/-- A test of all edges of a graph. -/
def WeightedGraph.allEdges {Node : Type*} (graph : WeightedGraph Node)
    (test : Node → Node × Nat → Bool) : Bool :=
  graph.nodes.all fun src => (graph.edges src).all (test src)

/-- `build_peer_graph_from_snapshot`; weights that pass the check are those of the graph. -/
def buildPeerGraphChecked (bits : Nat) (myPeerId : PeerId) (snapshot : OspfRouteSnapshot)
    (costCalc : RouteCostCalculator) : Option (WeightedGraph PeerId) :=
  let graph := snapshot.buildPeerGraph costCalc myPeerId
  if graph.allEdges fun src edge => (edgeCostChecked bits snapshot costCalc src edge.1).isSome then
    some graph
  else
    none

/-- The comparison that keeps an edge for the second search of the least-hop policy. -/
def hopSumFits (bits : Nat) (lengths : PeerId → Option Nat) (src : PeerId) (edge : PeerId × Nat) :
    Bool :=
  match lengths src, lengths edge.1 with
  | some srcLen, some _ => (checkedAdd bits srcLen (normalizeEdgeCost edge.2)).isSome
  | _, _ => true

/-- `gen_next_hop_map_with_least_hop`: petgraph's `dijkstra` makes the same sums as the search with
first hops, with a heap of its own. -/
def leastHopChecked (bits : Nat) (hopHeap heap : MinHeap PeerId) (graph : WeightedGraph PeerId)
    (startNode : PeerId) :
    Option ((AList fun _ : PeerId => Nat) × (AList fun _ : PeerId => PeerId × Nat)) :=
  (dijkstraChecked (2 ^ bits) hopHeap (graph.reweight normalizeEdgeCost) startNode).bind
    fun result =>
    let lengths := fun node => result.1.lookup node
    if graph.allEdges (hopSumFits bits lengths) then
      dijkstraChecked (2 ^ bits) heap (graph.shortestHops lengths) startNode
    else
      none

/-- Build the graph and run both next-hop computations; there is nothing to compute if the local
peer is missing. -/
def routeCosts (bits : Nat) (hopHeap heap : MinHeap PeerId) (myPeerId : PeerId)
    (snapshot : OspfRouteSnapshot) (costCalc : RouteCostCalculator) : Option Unit :=
  if myPeerId ∉ snapshot.graphPeers then
    some ()
  else
    (buildPeerGraphChecked bits myPeerId snapshot costCalc).bind fun graph =>
      (leastHopChecked bits hopHeap heap graph myPeerId).bind fun _ =>
        (dijkstraChecked (2 ^ bits) heap graph myPeerId).map fun _ => ()

/-! ## When everything fits -/

/-- No latency of a link is negative, and no distance grows out of the word when the weight of a
link is added: not the normalized one for any link, not the others for links to a peer that may
still be unvisited. -/
structure CostsFit (bits : Nat) (paths : PathLengths PeerId) (myPeerId : PeerId)
    (snapshot : OspfRouteSnapshot) (costCalc : RouteCostCalculator) : Prop where
  nonneg : ∀ src dst, SeesLink snapshot myPeerId src dst → 0 ≤ (costCalc src dst).toInt
  hops : ∀ src dst length, SeesLink snapshot myPeerId src dst →
    Distance ((snapshot.buildPeerGraph costCalc myPeerId).reweight normalizeEdgeCost).edges myPeerId
      src length →
    length + normalizeEdgeCost (snapshot.edgeCost costCalc src dst) < 2 ^ bits
  leastHop : SumsFit (2 ^ bits) (searchedGraph .leastHop paths
    (snapshot.buildPeerGraph costCalc myPeerId) myPeerId).edges myPeerId
  leastCost : SumsFit (2 ^ bits) (snapshot.buildPeerGraph costCalc myPeerId).edges myPeerId

theorem WeightedGraph.allEdges_iff {Node : Type*} {graph : WeightedGraph Node}
    {test : Node → Node × Nat → Bool} :
    graph.allEdges test = true ↔
      ∀ src ∈ graph.nodes, ∀ edge ∈ graph.edges src, test src edge = true := by
  simp only [allEdges, List.all_eq_true]

section Fit

/-- The graph of the first search of the least-hop policy. -/
abbrev hopGraph (snapshot : OspfRouteSnapshot) (costCalc : RouteCostCalculator)
    (myPeerId : PeerId) :
    WeightedGraph PeerId :=
  (snapshot.buildPeerGraph costCalc myPeerId).reweight normalizeEdgeCost

/-- The field `hops` of `CostsFit`. -/
abbrev HopsFit (bits : Nat) (snapshot : OspfRouteSnapshot) (costCalc : RouteCostCalculator)
    (myPeerId : PeerId) : Prop :=
  ∀ src dst length, SeesLink snapshot myPeerId src dst →
    Distance (hopGraph snapshot costCalc myPeerId).edges myPeerId src length →
    length + normalizeEdgeCost (snapshot.edgeCost costCalc src dst) < 2 ^ bits

variable {snapshot : OspfRouteSnapshot} {costCalc : RouteCostCalculator} {myPeerId : PeerId}

theorem mem_buildPeerGraph (isNode : myPeerId ∈ snapshot.graphPeers) {src dst : PeerId}
    {cost : Nat} :
    (dst, cost) ∈ (snapshot.buildPeerGraph costCalc myPeerId).edges src ↔
      SeesLink snapshot myPeerId src dst ∧ cost = snapshot.edgeCost costCalc src dst := by
  rw [buildPeerGraph_edges isNode, OspfRouteSnapshot.mem_edgesFrom]
  constructor
  · rintro ⟨known, forwards, connected, dstKnown, isCost⟩
    exact ⟨⟨known, forwards, connected, dstKnown⟩, isCost⟩
  · rintro ⟨link, isCost⟩
    exact ⟨link.known, link.forwards, link.connected, link.dstKnown, isCost⟩

variable {bits : Nat}

/-- With 32 bits or more, the weight of an edge is computed exactly if the cost is not negative. -/
theorem isSome_edgeCostChecked (wide : 32 ≤ bits) (src dst : PeerId) :
    (edgeCostChecked bits snapshot costCalc src dst).isSome = true ↔
      0 ≤ (costCalc src dst).toInt := by
  have narrow := (costCalc src dst).toInt_lt
  have room : 2 ^ 32 ≤ 2 ^ bits := Nat.pow_le_pow_right (by decide) wide
  simp only [edgeCostChecked, castCost]
  by_cases nonneg : 0 ≤ (costCalc src dst).toInt
  · have fits : (costCalc src dst).toInt.toNat + avoidRelayCost < 2 ^ bits := by
      unfold avoidRelayCost
      omega
    simp only [nonneg, if_true, Option.bind_some, iff_true, checkedAdd, fits]
    split <;> rfl
  · simp [nonneg]

theorem isSome_buildPeerGraphChecked (wide : 32 ≤ bits) (isNode : myPeerId ∈ snapshot.graphPeers) :
    (buildPeerGraphChecked bits myPeerId snapshot costCalc).isSome = true ↔
      ∀ src dst, SeesLink snapshot myPeerId src dst → 0 ≤ (costCalc src dst).toInt := by
  have tested : ((snapshot.buildPeerGraph costCalc myPeerId).allEdges fun src edge =>
      (edgeCostChecked bits snapshot costCalc src edge.1).isSome) = true ↔
      ∀ src dst, SeesLink snapshot myPeerId src dst → 0 ≤ (costCalc src dst).toInt := by
    rw [WeightedGraph.allEdges_iff]
    simp only [isSome_edgeCostChecked wide]
    constructor
    · intro all src dst link
      exact all src link.known (dst, _) ((mem_buildPeerGraph isNode).mpr ⟨link, rfl⟩)
    · intro all src _ edge isEdge
      exact all src edge.1 ((mem_buildPeerGraph isNode).mp isEdge).1
  unfold buildPeerGraphChecked
  dsimp only
  split
  · rename_i passes
    exact iff_of_true rfl (tested.mp passes)
  · rename_i fails
    exact iff_of_false Bool.false_ne_true fun all => fails (tested.mpr all)

/-- The sums of the first search of the least-hop policy are among those of the comparison. -/
theorem sumsFit_reweight (isNode : myPeerId ∈ snapshot.graphPeers)
    (hops : HopsFit bits snapshot costCalc myPeerId) :
    SumsFit (2 ^ bits) (hopGraph snapshot costCalc myPeerId).edges myPeerId := by
  intro node distance next cost isDistance edge _ _
  obtain ⟨original, isEdge, same⟩ := List.mem_map.mp edge
  cases same
  obtain ⟨link, isCost⟩ := (mem_buildPeerGraph isNode).mp isEdge
  rw [isCost]
  exact hops node original.1 distance link isDistance

variable (paths : PathLengths PeerId)

section

variable (isNode : myPeerId ∈ snapshot.graphPeers)
include isNode

/-- The lengths the first search finds are the distances. -/
theorem lengths_eq (hopHeap : MinHeap PeerId) :
    (fun node =>
        (dijkstraWithFirstHop hopHeap (hopGraph snapshot costCalc myPeerId) myPeerId).1.lookup
          node) =
    paths.lengths (hopGraph snapshot costCalc myPeerId)
      myPeerId := by
  funext node
  ext length
  rw [paths.exact _ _ isNode]
  exact dijkstra_score_iff hopHeap _ isNode node length

/-- The comparisons of the least-hop policy fit exactly if every link fits behind the distance of
the peer it leaves. -/
theorem allEdges_hopSumFits :
    ((snapshot.buildPeerGraph costCalc myPeerId).allEdges (hopSumFits bits (paths.lengths
      (hopGraph snapshot costCalc myPeerId) myPeerId))) = true ↔
    HopsFit bits snapshot costCalc myPeerId := by
  have measured := paths.exact
    (hopGraph snapshot costCalc myPeerId) myPeerId isNode
  rw [WeightedGraph.allEdges_iff]
  constructor
  · intro all src dst length link isDistance
    have isEdge : (dst, snapshot.edgeCost costCalc src dst) ∈
        (snapshot.buildPeerGraph costCalc myPeerId).edges src :=
      (mem_buildPeerGraph isNode).mpr ⟨link, rfl⟩
    have passes := all src link.known _ isEdge
    have reweighted : (dst, normalizeEdgeCost (snapshot.edgeCost costCalc src dst)) ∈
        (hopGraph snapshot costCalc myPeerId).edges src :=
      List.mem_map.mpr ⟨_, isEdge, rfl⟩
    -- the other end is reached as well, so the sum is made
    obtain ⟨least, isLeast, _⟩ := (isDistance.1.snoc reweighted).distance
    simp only [hopSumFits, (measured src length).mpr isDistance, (measured dst least).mpr isLeast,
      checkedAdd] at passes
    split at passes
    · assumption
    · cases passes
  · intro all src _ edge isEdge
    obtain ⟨link, isCost⟩ := (mem_buildPeerGraph isNode).mp isEdge
    unfold hopSumFits
    split
    · rename_i srcLen _ isLength _
      rw [checkedAdd, isCost, if_pos (all src edge.1 srcLen link ((measured _ _).mp isLength))]
      rfl
    · rfl

theorem leastHopChecked_iff :
    (∀ hopHeap heap, (leastHopChecked bits hopHeap heap (snapshot.buildPeerGraph costCalc myPeerId)
      myPeerId).isSome = true) ↔
    HopsFit bits snapshot costCalc myPeerId ∧
    SumsFit (2 ^ bits) (searchedGraph .leastHop paths
      (snapshot.buildPeerGraph costCalc myPeerId) myPeerId).edges myPeerId := by
  have reweightNode : myPeerId ∈ (hopGraph snapshot costCalc myPeerId).nodes := isNode
  have searchedNode := mem_searchedGraph paths snapshot .leastHop costCalc isNode
  constructor
  · intro succeeds
    have first : SumsFit (2 ^ bits) (hopGraph snapshot costCalc myPeerId).edges myPeerId := by
      refine (dijkstraChecked_iff reweightNode).mp fun hopHeap => ?_
      have := succeeds hopHeap .leastFirst
      exact Option.isSome_of_isSome_bind this
    have rest : ∀ heap, (if (snapshot.buildPeerGraph costCalc myPeerId).allEdges (hopSumFits bits
        (paths.lengths (hopGraph snapshot costCalc myPeerId)
          myPeerId)) then
        dijkstraChecked (2 ^ bits) heap (searchedGraph .leastHop paths
          (snapshot.buildPeerGraph costCalc myPeerId) myPeerId) myPeerId
        else none).isSome = true := by
      intro heap
      have := succeeds .leastFirst heap
      simp only [leastHopChecked, dijkstraChecked_eq reweightNode first, Option.bind_some,
        lengths_eq paths isNode] at this
      exact this
    have passes : (snapshot.buildPeerGraph costCalc myPeerId).allEdges (hopSumFits bits
        (paths.lengths (hopGraph snapshot costCalc myPeerId)
          myPeerId)) = true := by
      have := rest .leastFirst
      split at this
      · assumption
      · cases this
    refine ⟨(allEdges_hopSumFits paths isNode).mp passes, (dijkstraChecked_iff searchedNode).mp ?_⟩
    intro heap
    have := rest heap
    rwa [if_pos passes] at this
  · rintro ⟨hops, fits⟩ hopHeap heap
    have passes := (allEdges_hopSumFits paths isNode).mpr hops
    have second := (dijkstraChecked_iff searchedNode).mpr fits heap
    simp only [leastHopChecked, dijkstraChecked_eq reweightNode (sumsFit_reweight isNode hops),
      Option.bind_some, lengths_eq paths isNode, passes, if_true]
    exact second

end

/-- Everything the route table computes fits exactly if the costs do. -/
theorem routeCosts_iff (wide : 32 ≤ bits) (isNode : myPeerId ∈ snapshot.graphPeers) :
    (∀ hopHeap heap, (routeCosts bits hopHeap heap myPeerId snapshot costCalc).isSome = true) ↔
      CostsFit bits paths myPeerId snapshot costCalc := by
  have graphNode : myPeerId ∈ (snapshot.buildPeerGraph costCalc myPeerId).nodes := isNode
  have built := @isSome_buildPeerGraphChecked snapshot costCalc myPeerId bits wide isNode
  have steps : ∀ hopHeap heap, (routeCosts bits hopHeap heap myPeerId snapshot costCalc).isSome =
      true ↔ (buildPeerGraphChecked bits myPeerId snapshot costCalc).isSome = true ∧
        (leastHopChecked bits hopHeap heap (snapshot.buildPeerGraph costCalc myPeerId)
          myPeerId).isSome = true ∧
        (dijkstraChecked (2 ^ bits) heap (snapshot.buildPeerGraph costCalc myPeerId)
          myPeerId).isSome = true := by
    intro hopHeap heap
    simp only [routeCosts, isNode, not_true_eq_false, if_false]
    unfold buildPeerGraphChecked
    dsimp only
    split
    · simp only [Option.bind_some, Option.isSome_some, true_and]
      cases leastHopChecked bits hopHeap heap
        (snapshot.buildPeerGraph costCalc myPeerId) myPeerId with
      | none => simp
      | some => simp
    · simp
  simp only [steps, forall_and, built]
  constructor
  · rintro ⟨nonneg, leastHop, leastCost⟩
    obtain ⟨hops, leastHop⟩ := (leastHopChecked_iff paths isNode).mp leastHop
    exact ⟨nonneg .leastFirst .leastFirst, hops, leastHop,
      (dijkstraChecked_iff graphNode).mp (leastCost .leastFirst)⟩
  · rintro ⟨nonneg, hops, leastHop, leastCost⟩
    exact ⟨fun _ _ => nonneg, (leastHopChecked_iff paths isNode).mpr ⟨hops, leastHop⟩,
      fun _ => (dijkstraChecked_iff graphNode).mpr leastCost⟩

/-- There are no more peers than `u32` values. -/
theorem length_dedup_le {peers : List PeerId} {bound : Nat}
    (small : ∀ peerId ∈ peers, peerId < bound) :
    peers.dedup.length ≤ bound := by
  have inRange : peers.dedup ⊆ List.range bound := by
    intro peerId member
    exact List.mem_range.mpr (small peerId (List.mem_dedup.mp member))
  have := (peers.nodup_dedup.subperm inRange).length_le
  rwa [List.length_range] at this

/-- With 64 bits, costs that are not negative are enough. -/
theorem costsFit_wide (isNode : myPeerId ∈ snapshot.graphPeers)
    (small : ∀ peerId ∈ snapshot.graphPeers, peerId < 2 ^ 32)
    (nonneg : ∀ src dst, SeesLink snapshot myPeerId src dst → 0 ≤ (costCalc src dst).toInt) :
    CostsFit 64 paths myPeerId snapshot costCalc := by
  have few := length_dedup_le small
  have light : ∀ src dst cost,
      (dst, cost) ∈ (snapshot.buildPeerGraph costCalc myPeerId).edges src → cost ≤ 2 ^ 32 - 2 := by
    intro src dst cost edge
    obtain ⟨link, isCost⟩ := (mem_buildPeerGraph isNode).mp edge
    have positive := nonneg src dst link
    have narrow := (costCalc src dst).toInt_lt
    rw [isCost, OspfRouteSnapshot.edgeCost, avoidRelayCost]
    split <;> omega
  have lightHop : ∀ weight, normalizeEdgeCost weight ≤ 2 ^ 31 := by
    intro weight
    unfold normalizeEdgeCost avoidRelayCost
    split <;> omega
  have fits : (snapshot.graphPeers.dedup.length + 1) * (2 ^ 32 - 2) < 2 ^ 64 := by omega
  refine ⟨nonneg, ?_, ?_, ?_⟩
  · intro src dst length _ isDistance
    have hopLight : ∀ node next cost, (next, cost) ∈ ((snapshot.buildPeerGraph costCalc
        myPeerId).reweight normalizeEdgeCost).edges node → cost ≤ 2 ^ 31 := by
      intro node next cost edge
      obtain ⟨original, _, same⟩ := List.mem_map.mp edge
      cases same
      exact lightHop _
    have far : length ≤ snapshot.graphPeers.dedup.length * 2 ^ 31 :=
      distance_le (show myPeerId ∈ (hopGraph snapshot costCalc myPeerId).nodes from isNode) hopLight
        isDistance
    have := lightHop (snapshot.edgeCost costCalc src dst)
    omega
  · refine sumsFit_of_bounded (mem_searchedGraph paths snapshot .leastHop costCalc
      isNode) ?_ fits
    intro src dst cost edge
    exact light src dst cost (mem_shortestHops.mp edge).1
  · exact sumsFit_of_bounded (show myPeerId ∈ (snapshot.buildPeerGraph costCalc myPeerId).nodes from
      isNode) light fits

end Fit

/-- With 64 bits nothing overflows exactly if no latency of a link is negative; with 64 and with 32
bits nothing does exactly if the costs fit 32 bits. -/
theorem route_costs_fit (map : GlobalPeerMap) (paths : PathLengths PeerId) (myPeerId : PeerId)
    (snapshot : OspfRouteSnapshot) (small : ∀ peerId ∈ snapshot.graphPeers, peerId < 2 ^ 32) :
    ((∀ hopHeap heap,
        (routeCosts 64 hopHeap heap myPeerId snapshot map.calculateCost).isSome = true) ↔
      (myPeerId ∈ snapshot.graphPeers → ∀ src dst, SeesLink snapshot myPeerId src dst →
        0 ≤ (map.calculateCost src dst).toInt)) ∧
    (((∀ hopHeap heap,
        (routeCosts 64 hopHeap heap myPeerId snapshot map.calculateCost).isSome = true) ∧
      (∀ hopHeap heap,
        (routeCosts 32 hopHeap heap myPeerId snapshot map.calculateCost).isSome = true)) ↔
      (myPeerId ∈ snapshot.graphPeers →
        CostsFit 32 paths myPeerId snapshot map.calculateCost)) := by
  by_cases isNode : myPeerId ∈ snapshot.graphPeers
  · rw [routeCosts_iff paths (by decide) isNode, routeCosts_iff paths (by decide) isNode]
    simp only [isNode, true_implies]
    have wide : (∀ src dst, SeesLink snapshot myPeerId src dst →
        0 ≤ (map.calculateCost src dst).toInt) →
        CostsFit 64 paths myPeerId snapshot map.calculateCost := costsFit_wide paths isNode small
    constructor
    · exact ⟨CostsFit.nonneg, wide⟩
    · exact ⟨And.right, fun fits => ⟨wide fits.nonneg, fits⟩⟩
  · simp [routeCosts, isNode]

/-- Four peers in a line, the middle ones of which would rather not relay. -/
private def lineOfFour : OspfRouteSnapshot where
  peerInfos := [1, 2, 3, 4].map fun peerId =>
    { peerId := peerId
      info := { RoutePeerInfo.empty [] 0 with
        peerId := peerId, version := 1, avoidRelayData := peerId = 2 ∨ peerId = 3 } }
  connMap := [
    { peerId := 1, connectedPeers := [2] }, { peerId := 2, connectedPeers := [1, 3] },
    { peerId := 3, connectedPeers := [2, 4] }, { peerId := 4, connectedPeers := [3] }]
  suppressedPeerIds := []
  version := 7

/-- Without reports every link costs 500. -/
theorem unreported_costs_fit :
    (routeCosts 64 .leastFirst .leastFirst 1 lineOfFour
      (PeerCenterServer.new.peerInfos.calculateCost)).isSome = true :=
  (route_costs_fit PeerCenterServer.new.peerInfos (.search .leastFirst) 1 lineOfFour
    (by decide +kernel)).1.mpr (fun _ _ _ _ => show 0 ≤ (500 : Int32).toInt by decide)
    .leastFirst .leastFirst

/-- A negative latency of peer 2 does not survive the cast and the penalty. On 32 bits two peers
that avoid relaying are too much, whatever the latencies. -/
theorem reported_costs_overflow :
    (routeCosts 64 .leastFirst .leastFirst 1 lineOfFour ((PeerCenterServer.new.reportPeers 2
      (AList.singleton 3 (-1))).peerInfos.calculateCost)).isSome = false ∧
    (routeCosts 32 .leastFirst .leastFirst 1 lineOfFour ((PeerCenterServer.new.reportPeers 2
      (AList.singleton 3 20)).peerInfos.calculateCost)).isSome = false := by
  decide +kernel

end EasyTier.Route
