import EasyTier.Route.GraphAlgo
import EasyTier.Route.SyncedInfo

/-! # The route table

The table is computed from a snapshot of the synced route database: a graph of the peers as seen
from one of them, shortest paths in it, and for every peer that is reached the first hop. Costs are
added as natural numbers, which is what the code computes while no sum passes the word size.
-/

namespace EasyTier.Route

open Data EasyTier.Graph

/-- `i32::MAX`. -/
def avoidRelayCost : Nat := 2 ^ 31 - 1

inductive NextHopPolicy where
  | leastHop
  | leastCost
  deriving DecidableEq

/-- `calculate_cost`, an `i32`. -/
abbrev RouteCostCalculator := PeerId → PeerId → Int32

structure OspfPeerInfo where
  peerId : PeerId
  info : RoutePeerInfo

/-- `connected_peers` is an ordered set, kept as the sorted list of its members. -/
structure OspfPeerConnInfo where
  peerId : PeerId
  connectedPeers : List PeerId

/-- What the route table is computed from. -/
structure OspfRouteSnapshot where
  peerInfos : List OspfPeerInfo
  connMap : List OspfPeerConnInfo
  suppressedPeerIds : List PeerId
  version : Nat

/-! ## The graph of the peers -/

variable (snapshot : OspfRouteSnapshot)

namespace OspfRouteSnapshot

/-- The lookup is collected into a hash map, where the last entry of a peer stays. -/
def peerInfo (peerId : PeerId) : Option RoutePeerInfo :=
  (snapshot.peerInfos.reverse.find? (·.peerId = peerId)).map (·.info)

def connectedPeers (peerId : PeerId) : Option (List PeerId) :=
  (snapshot.connMap.reverse.find? (·.peerId = peerId)).map (·.connectedPeers)

def getAvoidRelayData (peerId : PeerId) : Bool :=
  ((snapshot.peerInfo peerId).map (·.avoidRelayData)).getD false

/-- The peers that got a node. If a peer is listed twice, only its last node gets edges. -/
def graphPeers : List PeerId :=
  (snapshot.peerInfos.filter (·.info.version ≠ 0)).map (·.peerId)

/-- The weight of an edge; the cast to `usize` extends the sign. -/
def edgeCost (costCalc : RouteCostCalculator) (src dst : PeerId) :
    Nat :=
  let cost := ((costCalc src dst).toInt % 2 ^ 64).toNat
  if snapshot.getAvoidRelayData src then cost + avoidRelayCost else cost

/-- The edges that leave a peer, the last inserted first. A suppressed peer has edges in its own
graph only. -/
def edgesFrom (costCalc : RouteCostCalculator) (myPeerId : PeerId) :
    Edges PeerId := fun src =>
  if src ∉ snapshot.graphPeers then
    []
  else if src ≠ myPeerId ∧ src ∈ snapshot.suppressedPeerIds then
    []
  else
    let connected := (snapshot.connectedPeers src).getD []
    (connected.filter (· ∈ snapshot.graphPeers)).reverse.map fun dst =>
      (dst, snapshot.edgeCost costCalc src dst)

theorem mem_edgesFrom {snapshot : OspfRouteSnapshot} {costCalc : RouteCostCalculator}
    {myPeerId src dst : PeerId} {cost : Nat} :
    (dst, cost) ∈ snapshot.edgesFrom costCalc myPeerId src ↔
      src ∈ snapshot.graphPeers ∧ (src ∈ snapshot.suppressedPeerIds → src = myPeerId) ∧
      dst ∈ (snapshot.connectedPeers src).getD [] ∧ dst ∈ snapshot.graphPeers ∧
      cost = snapshot.edgeCost costCalc src dst := by
  unfold edgesFrom
  split
  · simp_all
  · split
    · simp_all
    · grind

/-- The nodes, and no edge if the local peer is missing. -/
def buildPeerGraph (costCalc : RouteCostCalculator)
    (myPeerId : PeerId) : WeightedGraph PeerId where
  nodes := snapshot.graphPeers
  edges := fun src =>
    if myPeerId ∈ snapshot.graphPeers then snapshot.edgesFrom costCalc myPeerId src else []
  closed := by
    intro src dst cost edge
    split at edge
    · exact (mem_edgesFrom.mp edge).2.2.2.1
    · cases edge

end OspfRouteSnapshot

/-- `build_peer_graph_from_snapshot`: the graph and the start node. -/
def buildPeerGraphFromSnapshot (myPeerId : PeerId) (snapshot : OspfRouteSnapshot)
    (costCalc : RouteCostCalculator) : WeightedGraph PeerId × Option PeerId :=
  (snapshot.buildPeerGraph costCalc myPeerId,
    if myPeerId ∈ snapshot.graphPeers then some myPeerId else none)

/-! ## The table -/

/-- `path_latency` is below `i32::MAX`. -/
structure OspfNextHopInfo where
  nextHopPeerId : PeerId
  pathLatency : Nat
  pathLen : Nat
  version : Nat
  deriving DecidableEq

/-- The parts of the table that next hops depend on, and the infos of the peers that are reached. -/
structure OspfRouteTable where
  peerInfos : AList fun _ : PeerId => RoutePeerInfo
  nextHopMap : AList fun _ : PeerId => OspfNextHopInfo
  suppressedPeerIds : List PeerId
  nextHopMapVersion : Nat

/-- petgraph's `dijkstra` without a goal: the distances of the nodes that are reached. -/
structure PathLengths (Node : Type*) where
  lengths : WeightedGraph Node → Node → Node → Option Nat
  exact : ∀ graph start, start ∈ graph.nodes → ∀ node length,
    lengths graph start node = some length ↔ Distance graph.edges start node length

/-- Distances by the search of the route table. -/
def PathLengths.search {Node : Type*} [DecidableEq Node] (heap : MinHeap Node) :
    PathLengths Node where
  lengths := fun graph start node => (dijkstraWithFirstHop heap graph start).1.lookup node
  exact := fun graph _ isNode => dijkstra_score_iff heap graph isNode

/-- The weight `gen_next_hop_map_with_least_hop` counts hops with. -/
def normalizeEdgeCost (weight : Nat) : Nat :=
  if weight ≥ avoidRelayCost then avoidRelayCost + 1 else 1

namespace WeightedGraph

variable {Node : Type*}

/-- The same edges with other weights. -/
def reweight (weigh : Nat → Nat) (graph : WeightedGraph Node) : WeightedGraph Node where
  nodes := graph.nodes
  edges := fun src => (graph.edges src).map fun edge => (edge.1, weigh edge.2)
  closed := by
    intro src dst cost edge
    obtain ⟨original, isEdge, same⟩ := List.mem_map.mp edge
    cases same
    exact graph.closed src _ _ isEdge

/-- The edges that lie on a path of least normalized weight. -/
def shortestHops (lengths : Node → Option Nat) (graph : WeightedGraph Node) :
    WeightedGraph Node where
  nodes := graph.nodes
  edges := fun src => (graph.edges src).filter fun edge =>
    match lengths src, lengths edge.1 with
    | some srcLen, some tgtLen => srcLen + normalizeEdgeCost edge.2 = tgtLen
    | _, _ => false
  closed := fun src dst cost edge => graph.closed src dst cost (List.mem_filter.mp edge).1

end WeightedGraph

variable (table : OspfRouteTable)

namespace OspfRouteTable

/-- A new table. -/
def empty : OspfRouteTable where
  peerInfos := ∅
  nextHopMap := ∅
  suppressedPeerIds := []
  nextHopMapVersion := 0

def getTopologyNextHop (dstPeerId : PeerId) : Option OspfNextHopInfo :=
  (table.nextHopMap.lookup dstPeerId).filter (table.nextHopMapVersion ≤ ·.version)

def getNextHop (dstPeerId : PeerId) : Option OspfNextHopInfo :=
  if dstPeerId ∈ table.suppressedPeerIds then none else table.getTopologyNextHop dstPeerId

def peerReachable (peerId : PeerId) : Bool :=
  (table.getNextHop peerId).isSome

def topologyPeerReachable (peerId : PeerId) : Bool :=
  (table.getTopologyNextHop peerId).isSome

def syncSuppressedPeerIds (snapshot : OspfRouteSnapshot) : OspfRouteTable :=
  let kept := table.suppressedPeerIds.filter (· ∈ snapshot.suppressedPeerIds)
  { table with suppressedPeerIds := snapshot.suppressedPeerIds ∪ kept }

/-- `next_hop_map_version.set_if_larger`. -/
def setVersionIfLarger (version : Nat) : OspfRouteTable :=
  { table with nextHopMapVersion := max table.nextHopMapVersion version }

def cleanExpiredRouteInfo : OspfRouteTable :=
  let cleaned := { table with
    nextHopMap := retain (fun _ info => table.nextHopMapVersion ≤ info.version) table.nextHopMap }
  { cleaned with
    peerInfos := retain (fun peerId _ => cleaned.peerReachable peerId) table.peerInfos }

/-- The next hop entries of the search's result. -/
def nextHopInfos (costs : AList fun _ : PeerId => Nat)
    (nextHops : AList fun _ : PeerId => PeerId × Nat) (version : Nat) :
    List (PeerId × OspfNextHopInfo) :=
  nextHops.entries.map fun entry =>
    (entry.1, {
      nextHopPeerId := entry.2.1
      pathLatency := (costs.lookup entry.1).getD 0 % avoidRelayCost
      pathLen := entry.2.2
      version := version })

def genNextHopMapWithLeastCost (heap : MinHeap PeerId)
    (graph : WeightedGraph PeerId) (startNode : PeerId) (version : Nat) : OspfRouteTable :=
  if startNode ∉ graph.nodes then
    table
  else
    let result := dijkstraWithFirstHop heap graph startNode
    let written := { table with
      nextHopMap := VersionedMap.offers (·.version) table.nextHopMap
        (nextHopInfos result.1 result.2 version) }
    written.setVersionIfLarger version

def genNextHopMapWithLeastHop (heap : MinHeap PeerId)
    (paths : PathLengths PeerId) (graph : WeightedGraph PeerId) (startNode : PeerId)
    (version : Nat) : OspfRouteTable :=
  if startNode ∉ graph.nodes then
    table
  else
    let pathLenMap := paths.lengths (graph.reweight normalizeEdgeCost) startNode
    table.genNextHopMapWithLeastCost heap (graph.shortestHops pathLenMap) startNode version

/-- Store the infos of the peers that are reached. -/
def insertPeerInfos (snapshot : OspfRouteSnapshot) : OspfRouteTable :=
  { table with
    peerInfos := table.nextHopMap.entries.foldl (fun peerInfos item =>
      if item.2.version < snapshot.version ∨ !table.peerReachable item.1 then
        peerInfos
      else
        match snapshot.peerInfo item.1 with
        | none => peerInfos
        | some info => peerInfos.insert item.1 info) table.peerInfos }

/-- `build_from_snapshot`. A graph without nodes has no start node either, and is treated alike. -/
def buildFromSnapshot (heap : MinHeap PeerId) (paths : PathLengths PeerId)
    (myPeerId : PeerId) (snapshot : OspfRouteSnapshot) (policy : NextHopPolicy)
    (costCalc : RouteCostCalculator) : OspfRouteTable :=
  let synced := table.syncSuppressedPeerIds snapshot
  let (graph, start) := buildPeerGraphFromSnapshot myPeerId snapshot costCalc
  match start with
  | none => (synced.setVersionIfLarger snapshot.version).cleanExpiredRouteInfo
  | some startNode =>
    let routed := match policy with
      | .leastHop => synced.genNextHopMapWithLeastHop heap paths graph startNode snapshot.version
      | .leastCost => synced.genNextHopMapWithLeastCost heap graph startNode snapshot.version
    (routed.insertPeerInfos snapshot).cleanExpiredRouteInfo

end OspfRouteTable

end EasyTier.Route
