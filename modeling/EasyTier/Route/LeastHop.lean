import EasyTier.Route.LoopFree
import Mathlib.Order.Minimal

/-! # What the least-hop policy selects

With the least-hop policy an entry describes a route that leaves as few relay-avoiding peers as
possible, then has as few hops as possible, then as little latency as possible. The first two are
compared at once, in the normalized weight `avoidRelayCost * avoided + hops`; latency is compared in
a second search, among the routes of least normalized weight.
-/

namespace EasyTier.Route

open Data EasyTier.Graph OspfRouteSnapshot

/-! ## Routes of a snapshot -/

/-- The local peer sees a link: both ends are known, the first one reports the other, and it is not
suppressed unless it is the local peer. -/
structure SeesLink (snapshot : OspfRouteSnapshot) (myPeerId src dst : PeerId) : Prop where
  known : src ∈ snapshot.graphPeers
  forwards : src ∈ snapshot.suppressedPeerIds → src = myPeerId
  connected : dst ∈ (snapshot.connectedPeers src).getD []
  dstKnown : dst ∈ snapshot.graphPeers

/-- A route over the links the local peer sees, given by the two ends of every hop. -/
inductive SnapshotRoute (snapshot : OspfRouteSnapshot) (myPeerId : PeerId) :
    PeerId → PeerId → List (PeerId × PeerId) → Prop
  | nil (peerId : PeerId) : SnapshotRoute snapshot myPeerId peerId peerId []
  | cons {src next dst : PeerId} {hops : List (PeerId × PeerId)}
      (link : SeesLink snapshot myPeerId src next)
      (tail : SnapshotRoute snapshot myPeerId next dst hops) :
      SnapshotRoute snapshot myPeerId src dst ((src, next) :: hops)

/-- The hops that leave a peer which avoids relaying. -/
def avoidedHops (snapshot : OspfRouteSnapshot) (hops : List (PeerId × PeerId)) : Nat :=
  hops.countP fun hop => snapshot.getAvoidRelayData hop.1

/-- The total latency. -/
def routeLatency (costCalc : RouteCostCalculator) (hops : List (PeerId × PeerId)) : Nat :=
  (hops.map fun hop => (costCalc hop.1 hop.2).toInt.toNat).sum

/-- The peer a route goes to first. -/
def firstPeer (src : PeerId) (hops : List (PeerId × PeerId)) : PeerId :=
  (hops.head?.map (·.2)).getD src

/-- A route with the fewest avoided hops, among those the fewest hops, among those the least
latency. -/
structure BestRoute (snapshot : OspfRouteSnapshot) (costCalc : RouteCostCalculator)
    (myPeerId dst : PeerId) (hops : List (PeerId × PeerId)) : Prop where
  route : SnapshotRoute snapshot myPeerId myPeerId dst hops
  fewestAvoided : ∀ other, SnapshotRoute snapshot myPeerId myPeerId dst other →
    avoidedHops snapshot hops ≤ avoidedHops snapshot other
  fewestHops : ∀ other, SnapshotRoute snapshot myPeerId myPeerId dst other →
    avoidedHops snapshot other = avoidedHops snapshot hops → hops.length ≤ other.length
  leastLatency : ∀ other, SnapshotRoute snapshot myPeerId myPeerId dst other →
    avoidedHops snapshot other = avoidedHops snapshot hops → other.length = hops.length →
    routeLatency costCalc hops ≤ routeLatency costCalc other

theorem exists_least {Item : Type*} (measure : Item → Nat) (holds : Item → Prop)
    (inhabited : ∃ item, holds item) :
    ∃ item, holds item ∧ ∀ other, holds other → measure item ≤ measure other := by
  obtain ⟨item, isItem, least⟩ := exists_minimalFor_of_wellFoundedLT holds measure inhabited
  exact ⟨item, isItem, fun other isOther => (Nat.le_total _ _).elim id (least isOther)⟩

/-- Every peer that can be reached has a best route. -/
theorem exists_bestRoute (snapshot : OspfRouteSnapshot) (costCalc : RouteCostCalculator)
    {myPeerId dst : PeerId} (reached : ∃ hops, SnapshotRoute snapshot myPeerId myPeerId dst hops) :
    ∃ hops, BestRoute snapshot costCalc myPeerId dst hops := by
  obtain ⟨first, firstRoute, avoids⟩ := exists_least (avoidedHops snapshot) _ reached
  obtain ⟨second, ⟨secondRoute, secondAvoids⟩, shortest⟩ := exists_least List.length
    (fun hops => SnapshotRoute snapshot myPeerId myPeerId dst hops ∧
      avoidedHops snapshot hops = avoidedHops snapshot first) ⟨first, firstRoute, rfl⟩
  obtain ⟨third, ⟨route, sameAvoids, sameLength⟩, fastest⟩ := exists_least (routeLatency costCalc)
    (fun hops => SnapshotRoute snapshot myPeerId myPeerId dst hops ∧
      avoidedHops snapshot hops = avoidedHops snapshot first ∧ hops.length = second.length)
    ⟨second, secondRoute, secondAvoids, rfl⟩
  refine ⟨third, route, ?_, ?_, ?_⟩
  · intro other isRoute
    exact sameAvoids ▸ avoids other isRoute
  · intro other isRoute same
    exact sameLength ▸ shortest other ⟨isRoute, same.trans sameAvoids⟩
  · intro other isRoute same length
    exact fastest other ⟨isRoute, same.trans sameAvoids, length.trans sameLength⟩

/-! ## Routes and paths of the peer graph -/

/-- The edges of the peer graph a route takes. -/
def routeSteps (snapshot : OspfRouteSnapshot) (costCalc : RouteCostCalculator)
    (hops : List (PeerId × PeerId)) : List (PeerId × Nat) :=
  hops.map fun hop => (hop.2, snapshot.edgeCost costCalc hop.1 hop.2)

variable {hops : List (PeerId × PeerId)} {steps : List (PeerId × Nat)}

section Weights

variable {snapshot : OspfRouteSnapshot} {costCalc : RouteCostCalculator} {myPeerId src dst : PeerId}

theorem SnapshotRoute.path (route : SnapshotRoute snapshot myPeerId src dst hops) :
    Path (snapshot.edgesFrom costCalc myPeerId) src dst (routeSteps snapshot costCalc hops) := by
  induction route with
  | nil peerId => exact .nil peerId
  | cons link _ ih =>
    refine .cons (mem_edgesFrom.mpr ?_) ih
    exact ⟨link.known, link.forwards, link.connected, link.dstKnown, rfl⟩

theorem exists_route_of_path (path : Path (snapshot.edgesFrom costCalc myPeerId) src dst steps) :
    ∃ hops, SnapshotRoute snapshot myPeerId src dst hops ∧
      routeSteps snapshot costCalc hops = steps := by
  induction path with
  | nil peerId => exact ⟨[], .nil peerId, rfl⟩
  | cons edge _ ih =>
    obtain ⟨hops, route, rfl⟩ := ih
    obtain ⟨known, forwards, connected, dstKnown, rfl⟩ := mem_edgesFrom.mp edge
    exact ⟨_, .cons ⟨known, forwards, connected, dstKnown⟩ route, rfl⟩

variable (costs : ∀ src dst, SeesLink snapshot myPeerId src dst →
  0 ≤ (costCalc src dst).toInt ∧ (costCalc src dst).toInt < avoidRelayCost)

include costs

theorem edgeCost_eq (link : SeesLink snapshot myPeerId src dst) :
    snapshot.edgeCost costCalc src dst = (costCalc src dst).toInt.toNat +
      if snapshot.getAvoidRelayData src then avoidRelayCost else 0 := by
  obtain ⟨nonneg, small⟩ := costs src dst link
  have exact : ((costCalc src dst).toInt % 2 ^ 64).toNat = (costCalc src dst).toInt.toNat := by
    unfold avoidRelayCost at small
    omega
  simp only [edgeCost, exact]
  split <;> rfl

theorem normalizeEdgeCost_edgeCost (link : SeesLink snapshot myPeerId src dst) :
    normalizeEdgeCost (snapshot.edgeCost costCalc src dst) =
      (if snapshot.getAvoidRelayData src then avoidRelayCost else 0) + 1 := by
  obtain ⟨_, small⟩ := costs src dst link
  rw [edgeCost_eq costs link, normalizeEdgeCost]
  split
  · rw [if_pos (by omega)]
  · rw [if_neg (by omega)]

section

variable (route : SnapshotRoute snapshot myPeerId src dst hops)
include route

/-- The weight of a route is its latency and the penalties. -/
theorem totalWeight_routeSteps :
    totalWeight (routeSteps snapshot costCalc hops) =
      routeLatency costCalc hops + avoidRelayCost * avoidedHops snapshot hops := by
  induction route with
  | nil => rfl
  | cons link _ ih =>
    simp only [routeSteps, routeLatency, avoidedHops, List.map_cons, totalWeight_cons,
      List.sum_cons, List.countP_cons] at ih ⊢
    rw [ih, edgeCost_eq costs link]
    split
    · rw [Nat.mul_add]
      omega
    · simp only [Nat.add_zero]
      omega

/-- The normalized weight of a route counts its avoided hops and its hops. -/
theorem normalizedWeight_routeSteps :
    totalWeight ((routeSteps snapshot costCalc hops).map fun step =>
        (step.1, normalizeEdgeCost step.2)) =
      avoidRelayCost * avoidedHops snapshot hops + hops.length := by
  induction route with
  | nil => rfl
  | cons link _ ih =>
    simp only [routeSteps, avoidedHops, List.map_cons, totalWeight_cons, List.countP_cons,
      List.length_cons] at ih ⊢
    rw [ih, normalizeEdgeCost_edgeCost costs link]
    split
    · rw [Nat.mul_add]
      omega
    · simp only [Nat.add_zero]
      omega

end

end Weights

/-! ## Paths of shortest hops -/

section ShortestPaths

variable {Node : Type*} {graph : WeightedGraph Node} {start : Node} {lengths : Node → Option Nat}

/-- The normalized weight of some edges. -/
def normalizedWeight (steps : List (Node × Nat)) : Nat :=
  totalWeight (steps.map fun step => (step.1, normalizeEdgeCost step.2))

variable {src dst : Node} {steps : List (Node × Nat)}

theorem Path.reweight (path : Path graph.edges src dst steps) :
    Path (graph.reweight normalizeEdgeCost).edges src dst
      (steps.map fun step => (step.1, normalizeEdgeCost step.2)) := by
  induction path with
  | nil node => exact .nil node
  | cons edge _ ih => exact .cons (List.mem_map.mpr ⟨_, edge, rfl⟩) ih

theorem exists_path_of_reweight
    (path : Path (graph.reweight normalizeEdgeCost).edges src dst steps) :
    ∃ original, Path graph.edges src dst original ∧
      original.map (fun step => (step.1, normalizeEdgeCost step.2)) = steps := by
  induction path with
  | nil node => exact ⟨[], .nil node, rfl⟩
  | cons edge _ ih =>
    obtain ⟨rest, path, rfl⟩ := ih
    obtain ⟨original, isEdge, same⟩ := List.mem_map.mp edge
    cases same
    exact ⟨original :: rest, .cons isEdge path, rfl⟩

/-- A path of shortest hops is a path, and leads from length to length. -/
theorem Path.of_shortestHops
    (path : Path (graph.shortestHops lengths).edges src dst steps) {length : Nat}
    (isLength : lengths src = some length) :
    Path graph.edges src dst steps ∧ lengths dst = some (length + normalizedWeight steps) := by
  induction path generalizing length with
  | nil node => exact ⟨.nil node, isLength⟩
  | @cons src next dst cost steps edge _ ih =>
    obtain ⟨isEdge, same, isSame, isNext⟩ := mem_shortestHops.mp edge
    rw [isLength, Option.some.injEq] at isSame
    subst isSame
    obtain ⟨path, ends⟩ := ih isNext
    refine ⟨.cons isEdge path, ?_⟩
    simp only [normalizedWeight, List.map_cons, totalWeight_cons] at ends ⊢
    rw [ends, Nat.add_assoc]

/-- A path whose ends are as far apart as its normalized weight takes only shortest hops. -/
theorem Path.to_shortestHops (measured : ∀ node length, lengths node = some length ↔
      Distance (graph.reweight normalizeEdgeCost).edges start node length)
    (path : Path graph.edges src dst steps)
    {length : Nat} (isLength : lengths src = some length)
    (isLast : lengths dst = some (length + normalizedWeight steps)) :
    Path (graph.shortestHops lengths).edges src dst steps := by
  induction path generalizing length with
  | nil node => exact .nil node
  | @cons src next dst cost steps edge tail ih =>
    simp only [normalizedWeight, List.map_cons, totalWeight_cons] at isLast ih
    have reweighted : (next, normalizeEdgeCost cost) ∈
        (graph.reweight normalizeEdgeCost).edges src := List.mem_map.mpr ⟨_, edge, rfl⟩
    -- a shorter way to the next node would make the last one nearer as well
    obtain ⟨least, isLeast, bound⟩ :=
      (((measured src length).mp isLength).1.snoc reweighted).distance
    have toLast := ((measured dst _).mp isLast).2 (isLeast.1.append (reweight tail).walk)
    have same : least = length + normalizeEdgeCost cost := by omega
    have isNext := (measured next _).mpr (same ▸ isLeast)
    refine .cons (mem_shortestHops.mpr ⟨edge, length, isLength, isNext⟩) (ih isNext ?_)
    rw [isLast, Nat.add_assoc]

end ShortestPaths

/-! ## The selected route -/

namespace OspfRouteTable

/-- The entry of a destination in a new table. -/
theorem lookup_fresh_nextHopMap (heap : MinHeap PeerId) (paths : PathLengths PeerId)
    (snapshot : OspfRouteSnapshot) (costCalc : RouteCostCalculator) {myPeerId : PeerId}
    (isNode : myPeerId ∈ snapshot.graphPeers) {dst : PeerId} {hop : PeerId × Nat} {score : Nat}
    (recorded : (dijkstraWithFirstHop heap (searchedGraph .leastHop paths
      (snapshot.buildPeerGraph costCalc myPeerId) myPeerId) myPeerId).2.lookup dst = some hop)
    (isScore : (dijkstraWithFirstHop heap (searchedGraph .leastHop paths
      (snapshot.buildPeerGraph costCalc myPeerId) myPeerId) myPeerId).1.lookup dst = some score) :
    (empty.buildFromSnapshot heap paths myPeerId snapshot .leastHop costCalc).nextHopMap.lookup
        dst =
      some
        { nextHopPeerId := hop.1, pathLatency := score % avoidRelayCost, pathLen := hop.2
          version := snapshot.version } := by
  have started := mem_searchedGraph paths snapshot .leastHop costCalc isNode
  obtain ⟨info, stored, _, current⟩ := lookup_nextHopInfos_complete recorded snapshot.version
  obtain ⟨again, _, latency⟩ := lookup_nextHopInfos stored
  rw [isScore, Option.getD_some] at latency
  rw [recorded, Option.some.injEq] at again
  have isInfo : info =
      { nextHopPeerId := hop.1, pathLatency := score % avoidRelayCost, pathLen := hop.2,
        version := snapshot.version } := by
    cases info
    subst again latency current
    rfl
  rw [← isInfo, buildFromSnapshot_of_mem heap paths snapshot .leastHop costCalc empty isNode,
    genNextHopMapWithLeastCost, if_neg (not_not.mpr started)]
  refine lookup_retain_iff.mpr ⟨stored, decide_eq_true ?_⟩
  change max 0 snapshot.version ≤ info.version
  rw [current, Nat.zero_max]

end OspfRouteTable

open OspfRouteTable

/-- One avoided hop more weighs as much as `avoidRelayCost` hops. -/
theorem penalty_le {fewer more : Nat} (less : fewer < more) :
    avoidRelayCost * fewer + avoidRelayCost ≤ avoidRelayCost * more := by
  exact Nat.mul_le_mul_left _ less

section Selection

variable {snapshot : OspfRouteSnapshot} {costCalc : RouteCostCalculator} {myPeerId dst : PeerId}
  (isNode : myPeerId ∈ snapshot.graphPeers)
  (costs : ∀ src dst, SeesLink snapshot myPeerId src dst →
    0 ≤ (costCalc src dst).toInt ∧ (costCalc src dst).toInt < avoidRelayCost)
  {best : List (PeerId × PeerId)} (isBest : BestRoute snapshot costCalc myPeerId dst best)
  (few : best.length < avoidRelayCost)

include isNode costs isBest few

/-- The normalized weight of the best route is the least. -/
theorem BestRoute.distance :
    Distance ((snapshot.buildPeerGraph costCalc myPeerId).reweight normalizeEdgeCost).edges myPeerId
      dst (avoidRelayCost * avoidedHops snapshot best + best.length) := by
  have sameEdges : (snapshot.buildPeerGraph costCalc myPeerId).edges =
      snapshot.edgesFrom costCalc myPeerId := buildPeerGraph_edges isNode
  constructor
  · have path : Path (snapshot.buildPeerGraph costCalc myPeerId).edges myPeerId dst
        (routeSteps snapshot costCalc best) := sameEdges ▸ isBest.route.path
    have walk := (Path.reweight path).walk
    rwa [normalizedWeight_routeSteps costs isBest.route] at walk
  · rintro weight walk
    obtain ⟨steps, reweighted, rfl⟩ := walk.path
    obtain ⟨original, path, rfl⟩ := exists_path_of_reweight reweighted
    rw [sameEdges] at path
    obtain ⟨hops, route, rfl⟩ := exists_route_of_path path
    rw [normalizedWeight_routeSteps costs route]
    have avoids := isBest.fewestAvoided hops route
    by_cases same : avoidedHops snapshot hops = avoidedHops snapshot best
    · have := isBest.fewestHops hops route same
      rw [same]
      omega
    · have penalty :=
        penalty_le (show avoidedHops snapshot best < avoidedHops snapshot hops by omega)
      omega

variable (paths : PathLengths PeerId)

/-- Every path of shortest hops is a route with as many avoided hops and hops as the best. -/
theorem BestRoute.of_shortestHops (path : Path (searchedGraph .leastHop paths
      (snapshot.buildPeerGraph costCalc myPeerId) myPeerId).edges myPeerId dst steps) :
    ∃ hops, SnapshotRoute snapshot myPeerId myPeerId dst hops ∧
      routeSteps snapshot costCalc hops = steps ∧
      avoidedHops snapshot hops = avoidedHops snapshot best ∧ hops.length = best.length := by
  have measured := paths.exact
    ((snapshot.buildPeerGraph costCalc myPeerId).reweight normalizeEdgeCost) myPeerId isNode
  have distance := distance isNode costs isBest few
  obtain ⟨path, ends⟩ := Path.of_shortestHops path ((measured _ _).mpr (distance_self _ _))
  rw [buildPeerGraph_edges isNode] at path
  obtain ⟨hops, route, rfl⟩ := exists_route_of_path path
  have weight := ((measured _ _).mp ends).unique distance
  rw [normalizedWeight, normalizedWeight_routeSteps costs route, Nat.zero_add] at weight
  have avoids := isBest.fewestAvoided hops route
  have same : avoidedHops snapshot hops = avoidedHops snapshot best := by
    by_contra different
    have penalty := penalty_le (show avoidedHops snapshot best < avoidedHops snapshot hops by omega)
    omega
  rw [same] at weight
  exact ⟨hops, route, rfl, same, by omega⟩

/-- A route with as many avoided hops and hops as the best takes only shortest hops. -/
theorem BestRoute.to_shortestHops (route : SnapshotRoute snapshot myPeerId myPeerId dst hops)
    (sameAvoided : avoidedHops snapshot hops = avoidedHops snapshot best)
    (sameLength : hops.length = best.length) :
    Path (searchedGraph .leastHop paths
      (snapshot.buildPeerGraph costCalc myPeerId) myPeerId).edges myPeerId dst
      (routeSteps snapshot costCalc hops) := by
  have measured := paths.exact
    ((snapshot.buildPeerGraph costCalc myPeerId).reweight normalizeEdgeCost) myPeerId isNode
  have distance := BestRoute.distance isNode costs isBest few
  have path : Path (snapshot.buildPeerGraph costCalc myPeerId).edges myPeerId dst
      (routeSteps snapshot costCalc hops) :=
    (buildPeerGraph_edges isNode : (snapshot.buildPeerGraph costCalc myPeerId).edges = _) ▸
      route.path
  refine Path.to_shortestHops measured path ((measured _ _).mpr (distance_self _ _)) ?_
  rw [measured, normalizedWeight, normalizedWeight_routeSteps costs route, Nat.zero_add,
    sameAvoided, sameLength]
  exact distance

/-- The lightest of the routes of shortest hops is the best one. -/
theorem BestRoute.of_lightest {score : Nat}
    (route : SnapshotRoute snapshot myPeerId myPeerId dst hops)
    (sameAvoided : avoidedHops snapshot hops = avoidedHops snapshot best)
    (sameLength : hops.length = best.length)
    (isScore : totalWeight (routeSteps snapshot costCalc hops) = score)
    (least : Distance (searchedGraph .leastHop paths
      (snapshot.buildPeerGraph costCalc myPeerId) myPeerId).edges myPeerId dst score) :
    BestRoute snapshot costCalc myPeerId dst hops where
  route := route
  fewestAvoided other isRoute := sameAvoided ▸ isBest.fewestAvoided other isRoute
  fewestHops other isRoute same :=
    sameLength ▸ isBest.fewestHops other isRoute (same.trans sameAvoided)
  leastLatency other isRoute same length := by
    have path := to_shortestHops isNode costs isBest few paths isRoute
      (same.trans sameAvoided) (length.trans sameLength)
    have bound := least.2 path.walk
    rw [← isScore, totalWeight_routeSteps costs route, totalWeight_routeSteps costs isRoute,
      same] at bound
    omega

end Selection

/-- The way from peer 1 to peer 4 around peer 2 is longer. One peer would rather not relay. -/
private def detourSnapshot (avoiding : PeerId) : OspfRouteSnapshot where
  peerInfos := [1, 2, 3, 4, 5].map fun peerId =>
    { peerId := peerId
      info := { RoutePeerInfo.empty [] 0 with
        peerId := peerId, version := 1, avoidRelayData := peerId = avoiding } }
  connMap := [
    { peerId := 1, connectedPeers := [2, 3] }, { peerId := 2, connectedPeers := [1, 4] },
    { peerId := 3, connectedPeers := [1, 5] }, { peerId := 5, connectedPeers := [3, 4] }]
  suppressedPeerIds := []
  version := 7

/-- All links have a latency of 20 but the one from peer 1 to peer 2, which has the largest. -/
private def slowLink : RouteCostCalculator := fun src dst =>
  if src = 1 ∧ dst = 2 then 2 ^ 31 - 1 else 20

end EasyTier.Route
