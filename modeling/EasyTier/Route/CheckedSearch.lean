import EasyTier.Route.GraphAlgo

/-! # When the sums of the search fit a word

The search adds the score of a popped node and the weight of each edge to a node that is not visited
yet. `dijkstraChecked` stops at the first sum that does not fit. Which sums are made depends on
how the heap breaks ties; `SumsFit` says of a graph that all of them fit however ties are broken.
-/

namespace EasyTier.Route

open Data EasyTier.Graph

universe u

variable {Node : Type u} [DecidableEq Node]

namespace Search

/-- The loop body for one edge, with the sum checked. -/
def relaxChecked (limit : Nat) (start node : Node) (nodeScore : Nat) (search : Search Node)
    (edge : Node × Nat) : Option (Search Node) :=
  if edge.1 ∉ search.visited ∧ limit ≤ nodeScore + edge.2 then none
  else some (search.relaxOne start node nodeScore edge)

def expandChecked (limit : Nat) (edges : Edges Node) (start : Node) (search : Search Node)
    (top : Nat × Node) : Option (Search Node) :=
  if top.2 ∈ search.visited then
    some search
  else
    ((edges top.2).foldlM (relaxChecked limit start top.2 top.1) search).map fun relaxed =>
      { relaxed with visited := top.2 :: relaxed.visited }

def runChecked (limit : Nat) (heap : MinHeap Node) (edges : Edges Node) (start : Node) :
    Nat → Search Node → Option (Search Node)
  | 0, search => some search
  | fuel + 1, search =>
    match heap.pop search.visitNext with
    | none => some search
    | some (top, rest) =>
      (expandChecked limit edges start { search with visitNext := rest } top).bind fun next =>
        runChecked limit heap edges start fuel next

/-- Every sum of an expansion fits. -/
def SumsFitAt (limit : Nat) (edges : Edges Node) (search : Search Node) (top : Nat × Node) : Prop :=
  top.2 ∉ search.visited → ∀ edge ∈ edges top.2, edge.1 ∉ search.visited → top.1 + edge.2 < limit

instance (limit : Nat) (edges : Edges Node) (search : Search Node) (top : Nat × Node) :
    Decidable (SumsFitAt limit edges search top) :=
  inferInstanceAs (Decidable (_ → _))

@[simp] theorem visited_relaxOne (start node : Node) (nodeScore : Nat) (search : Search Node)
    (edge : Node × Nat) : (search.relaxOne start node nodeScore edge).visited = search.visited := by
  unfold relaxOne
  dsimp only
  split
  · rfl
  · split <;> rfl

theorem foldlM_relaxChecked (limit : Nat) (start node : Node) (nodeScore : Nat)
    (search : Search Node) (edges : List (Node × Nat)) :
    edges.foldlM (relaxChecked limit start node nodeScore) search =
      if ∀ edge ∈ edges, edge.1 ∉ search.visited → nodeScore + edge.2 < limit then
        some (edges.foldl (relaxOne start node nodeScore) search)
      else none := by
  induction edges generalizing search with
  | nil => simp
  | cons edge edges ih =>
    simp only [List.foldlM_cons, List.foldl_cons, List.forall_mem_cons]
    by_cases fits : edge.1 ∉ search.visited → nodeScore + edge.2 < limit
    · have passes : relaxChecked limit start node nodeScore search edge =
          some (search.relaxOne start node nodeScore edge) :=
        if_neg fun ⟨unvisited, large⟩ => absurd (fits unvisited) (Nat.not_lt.mpr large)
      rw [passes, Option.bind_eq_bind, Option.bind_some, ih]
      simp only [visited_relaxOne, and_iff_right fits]
    · obtain ⟨unvisited, large⟩ := Classical.not_imp.mp fits
      have stops : relaxChecked limit start node nodeScore search edge = none :=
        if_pos ⟨unvisited, Nat.not_lt.mp large⟩
      rw [stops, if_neg fun all => fits all.1]
      rfl

theorem expandChecked_eq (limit : Nat) (edges : Edges Node) (start : Node) (search : Search Node)
    (top : Nat × Node) :
    expandChecked limit edges start search top =
      if SumsFitAt limit edges search top then some (search.expand edges start top) else none := by
  unfold expandChecked expand SumsFitAt
  by_cases isVisited : top.2 ∈ search.visited
  · simp [isVisited]
  · rw [if_neg isVisited, if_neg isVisited, foldlM_relaxChecked]
    simp only [isVisited, not_false_eq_true, forall_true_left]
    split <;> rfl

end Search

open Search

/-- `dijkstra_with_first_hop` with checked sums; `dijkstra` of `petgraph` makes the same ones. -/
def dijkstraChecked (limit : Nat) (heap : MinHeap Node) (graph : WeightedGraph Node)
    (start : Node) :
    Option ((AList fun _ : Node => Nat) × (AList fun _ : Node => Node × Nat)) :=
  (runChecked limit heap graph.edges start graph.fuel (.initial start)).map fun search =>
    (search.scores, search.firstHop)

/-! ## Scores and the nodes that are visited -/

/-- A path of the given weight that leaves every node at most once, and only nodes of a list. -/
def PathWithin (edges : Edges Node) (start node : Node) (weight : Nat) (allowed : List Node) :
    Prop :=
  ∃ steps, Path edges start node steps ∧ totalWeight steps = weight ∧ (leaves start steps).Nodup ∧
    ∀ left ∈ leaves start steps, left ∈ allowed

variable {start node : Node} {limit bound : Nat} {graph : WeightedGraph Node}
  {steps : List (Node × Nat)} {top : Nat × Node} {edges : Edges Node} {search : Search Node}
  {rest : List (Nat × Node)} {allowed : List Node}

omit [DecidableEq Node] in
theorem PathWithin.mono {weight : Nat}
    {more : List Node} (within : PathWithin edges start node weight allowed)
    (subset : allowed ⊆ more) : PathWithin edges start node weight more := by
  obtain ⟨steps, path, isWeight, nodup, inside⟩ := within
  exact ⟨steps, path, isWeight, nodup, fun left member => subset (inside left member)⟩

omit [DecidableEq Node] in
/-- An edge that leaves a new node extends the path. -/
theorem PathWithin.snoc {next : Node} {weight cost : Nat}
    (within : PathWithin edges start node weight allowed)
    (fresh : node ∉ allowed) (edge : (next, cost) ∈ edges node) :
    PathWithin edges start next (weight + cost) (node :: allowed) := by
  obtain ⟨steps, path, rfl, nodup, inside⟩ := within
  refine ⟨_, path.snoc edge, by simp, ?_, ?_⟩
  · rw [path.leaves_snoc, List.nodup_append]
    refine ⟨nodup, List.nodup_singleton node, ?_⟩
    intro left isLeft last isLast same
    rw [same, List.mem_singleton.mp isLast] at isLeft
    exact fresh (inside node isLeft)
  · intro left member
    rw [path.leaves_snoc, List.mem_append, List.mem_singleton] at member
    rcases member with earlier | rfl
    · exact List.mem_cons_of_mem _ (inside left earlier)
    · exact List.mem_cons_self

namespace Search

/-- Every score is that of a path over nodes of a list. -/
def Within (edges : Edges Node) (start : Node) (allowed : List Node) (search : Search Node) :
    Prop :=
  ∀ node score, search.scores.lookup node = some score →
    PathWithin edges start node score allowed

theorem Within.initial (edges : Edges Node) (start : Node) :
    Within edges start [] (.initial start) := by
  intro node score isScore
  simp only [Search.initial, lookup_singleton_eq] at isScore
  split at isScore
  · rename_i same
    cases isScore
    exact ⟨[], same ▸ .nil node, rfl, List.nodup_nil,
      fun _ inside => absurd inside List.not_mem_nil⟩
  · cases isScore

theorem Within.relaxOne {nodeScore : Nat}
    {edge : Node × Nat} (within : Within edges start (node :: allowed) search)
    (reached : PathWithin edges start node nodeScore allowed) (fresh : node ∉ allowed)
    (isEdge : edge ∈ edges node) :
    Within edges start (node :: allowed) (search.relaxOne start node nodeScore edge) := by
  unfold Search.relaxOne
  dsimp only
  split
  · exact within
  split
  · intro other score isScore
    rw [lookup_insert_eq] at isScore
    split at isScore
    · rename_i same
      cases isScore
      rw [same]
      exact reached.snoc fresh isEdge
    · exact within other score isScore
  · exact within

theorem visited_foldl_relaxOne (start node : Node) (nodeScore : Nat) (search : Search Node)
    (edges : List (Node × Nat)) :
    (edges.foldl (relaxOne start node nodeScore) search).visited = search.visited :=
  List.foldlRecOn (motive := fun after : Search Node => after.visited = search.visited) _ _ rfl
    fun after same edge _ => (visited_relaxOne start node nodeScore after edge).trans same

/-- Expanding a node visits it. -/
theorem visited_expand (edges : Edges Node) (start : Node) (search : Search Node)
    (top : Nat × Node) :
    (search.expand edges start top).visited =
      if top.2 ∈ search.visited then search.visited else top.2 :: search.visited := by
  unfold expand
  split
  · rfl
  · simp only [visited_foldl_relaxOne]

theorem Within.expand {graph : WeightedGraph Node}
    (within : Within graph.edges start search.visited search) (loop : Loop graph start search)
    {heap : MinHeap Node}
    (pops : heap.pop search.visitNext = some (top, rest)) {after : Search Node}
    (expanded : after = Search.expand graph.edges start { search with visitNext := rest } top) :
    Within graph.edges start after.visited after := by
  subst expanded
  rw [visited_expand]
  unfold Search.expand
  split
  · exact within
  rename_i unvisited
  have isTop : top ∈ search.visitNext := (heap.takes pops).mem_iff.mpr List.mem_cons_self
  have reached := within top.2 top.1 (loop.popped_score isTop (heap.least pops) unvisited)
  have opened : Within graph.edges start (top.2 :: search.visited)
      { search with visitNext := rest } :=
    fun node score isScore => (within node score isScore).mono (List.subset_cons_self _ _)
  have relaxed : Within graph.edges start (top.2 :: search.visited)
      ((graph.edges top.2).foldl (Search.relaxOne start top.2 top.1)
        { search with visitNext := rest }) :=
    List.foldlRecOn (motive := Within graph.edges start (top.2 :: search.visited)) _ _ opened
      fun _ within _ isEdge => within.relaxOne reached unvisited isEdge
  exact relaxed

/-! ## The frontier -/

section

variable (loop : Loop graph start search)
include loop

/-- A path to a node that is not visited leads over a node that waits, and its score is at most the
weight of the path. -/
theorem Loop.frontier {source target : Node}
    (path : Path graph.edges source target steps) {score : Nat}
    (isScore : search.scores.lookup source = some score) (unvisited : target ∉ search.visited) :
    ∃ waiting least, (waiting ∈ leaves source steps ∨ waiting = target) ∧
      (least, waiting) ∈ search.visitNext ∧ least ≤ score + totalWeight steps := by
  have waits : ∀ node score, search.scores.lookup node = some score → node ∉ search.visited →
      (score, node) ∈ search.visitNext := by
    intro node score isScore unvisited
    rcases loop.sound.waits node score isScore with isVisited | ⟨⟨⟩⟩ | waits
    · exact absurd isVisited unvisited
    exact waits
  induction path generalizing score with
  | nil node => exact ⟨node, score, .inr rfl, waits _ _ isScore unvisited, by simp⟩
  | @cons source next target cost steps edge _ ih =>
    by_cases isVisited : source ∈ search.visited
    · obtain ⟨same, isSame, relaxed⟩ := loop.settled.relaxed source isVisited
      rw [isScore, Option.some.injEq] at isSame
      obtain ⟨nextScore, isNext, bound⟩ := relaxed next cost edge
      obtain ⟨waiting, least, onPath, inHeap, small⟩ := ih isNext unvisited
      refine ⟨waiting, least, onPath.imp_left (List.mem_cons_of_mem _), inHeap, ?_⟩
      rw [totalWeight_cons]
      omega
    · exact ⟨source, score, .inl List.mem_cons_self, waits _ _ isScore isVisited,
        Nat.le_add_right _ _⟩

/-- No node that is not visited is nearer than the popped one. -/
theorem Loop.popped_le (least : ∀ entry ∈ search.visitNext, top.1 ≤ entry.1)
    (unvisited : node ∉ search.visited) {weight : Nat}
    (walk : Walk graph.edges start node weight) : top.1 ≤ weight := by
  obtain ⟨steps, path, rfl⟩ := walk.path
  obtain ⟨_, score, _, inHeap, bound⟩ := loop.frontier path loop.sound.startScore unvisited
  have := least _ inHeap
  omega

/-- The score of a popped node that is not visited is its distance. -/
theorem Loop.popped_distance (within : Within graph.edges start search.visited search)
    (member : top ∈ search.visitNext)
    (least : ∀ entry ∈ search.visitNext, top.1 ≤ entry.1) (unvisited : top.2 ∉ search.visited) :
    Distance graph.edges start top.2 top.1 := by
  obtain ⟨steps, path, isWeight, _⟩ :=
    within top.2 top.1 (loop.popped_score member least unvisited)
  exact ⟨isWeight ▸ path.walk, fun _ walk => loop.popped_le least unvisited walk⟩

end

end Search

/-- Whenever a node can be expanded before a successor is visited, its distance and the weight of
the edge fit. That is the case if the successor is not nearer and some lightest path to the node
does not leave it. -/
def SumsFit (limit : Nat) (edges : Edges Node) (start : Node) : Prop :=
  ∀ node distance next cost, Distance edges start node distance → (next, cost) ∈ edges node →
    (∀ other, Distance edges start next other → distance ≤ other) →
    (∃ steps, Path edges start node steps ∧ totalWeight steps = distance ∧
      next ∉ leaves start steps) →
    distance + cost < limit

namespace Search

section

variable
    (fits : SumsFit limit graph.edges start)
include fits

theorem sumsFitAt_of_sumsFit (loop : Loop graph start search)
    (within : Within graph.edges start search.visited search) {heap : MinHeap Node}
    (pops : heap.pop search.visitNext = some (top, rest)) :
    SumsFitAt limit graph.edges { search with visitNext := rest } top := by
  intro unvisited edge isEdge nextUnvisited
  have isTop : top ∈ search.visitNext := (heap.takes pops).mem_iff.mpr List.mem_cons_self
  have least := heap.least pops
  obtain ⟨steps, path, isWeight, _, inside⟩ :=
    within top.2 top.1 (loop.popped_score isTop least unvisited)
  refine fits top.2 top.1 edge.1 edge.2 (loop.popped_distance within isTop least unvisited) isEdge
    ?_ ⟨steps, path, isWeight, fun left => nextUnvisited (inside _ left)⟩
  intro other distance
  exact loop.popped_le least nextUnvisited distance.1

/-- If the sums fit, the checked search does what the search does. -/
theorem runChecked_of_sumsFit (heap : MinHeap Node)
    (loop : Loop graph start search) (within : Within graph.edges start search.visited search)
    (fuel : Nat) :
    runChecked limit heap graph.edges start fuel search =
      some (run heap graph.edges start fuel search) := by
  induction fuel generalizing search with
  | zero => rfl
  | succ fuel ih =>
    unfold runChecked run
    cases pops : heap.pop search.visitNext with
    | none => rfl
    | some popped =>
      simp only [expandChecked_eq, sumsFitAt_of_sumsFit fits loop within pops, if_true,
        Option.bind_some]
      exact ih (loop.expand pops).1 (within.expand loop pops rfl)

end

end Search

namespace MinHeap

/-- Pop an entry of least rank, for a rank that grows with the score. -/
def ranked (rank : Nat × Node → Nat)
    (grows : ∀ entry other, rank entry ≤ rank other → entry.1 ≤ other.1) :
    MinHeap Node where
  pop heap := (popLeast (heap.map fun entry => (rank entry, entry))).map fun popped =>
    (popped.1.2, popped.2.map (·.2))
  pops heap empty := by
    have none := popLeast_eq_none (Option.map_eq_none_iff.mp empty)
    exact List.map_eq_nil_iff.mp none
  takes {heap top rest} popped := by
    obtain ⟨⟨first, others⟩, isPopped, same⟩ := Option.map_eq_some_iff.mp popped
    cases same
    have perm := (popLeast_spec isPopped).1.map (·.2)
    simpa [List.map_map, Function.comp_def] using perm
  least {heap top rest} popped entry member := by
    obtain ⟨⟨first, others⟩, isPopped, same⟩ := Option.map_eq_some_iff.mp popped
    cases same
    obtain ⟨perm, least⟩ := popLeast_spec isPopped
    obtain ⟨original, _, isFirst⟩ := List.mem_map.mp (perm.mem_iff.mpr List.mem_cons_self)
    have bound := least (rank entry, entry) (List.mem_map_of_mem member)
    cases isFirst
    exact grows _ _ bound

/-- Among entries of equal score, those of one node come last. -/
def postponing (node : Node) : MinHeap Node :=
  ranked (fun entry => 2 * entry.1 + if entry.2 = node then 1 else 0) (by
    intro entry other bound
    split at bound <;> split at bound <;> omega)

/-- The node is popped only when no other entry has a score as small. -/
theorem postponing_last {heap : List (Nat × Node)}
    (pops : (postponing node).pop heap = some (top, rest)) (isNode : top.2 = node)
    {entry : Nat × Node} (member : entry ∈ heap) (small : entry.1 ≤ top.1) : entry.2 = node := by
  obtain ⟨⟨first, others⟩, isPopped, same⟩ := Option.map_eq_some_iff.mp pops
  cases same
  obtain ⟨perm, least⟩ := popLeast_spec isPopped
  obtain ⟨original, _, isFirst⟩ := List.mem_map.mp (perm.mem_iff.mpr List.mem_cons_self)
  have bound := least _ (List.mem_map_of_mem member)
  cases isFirst
  by_contra other
  dsimp only at isNode small bound
  rw [if_pos isNode, if_neg other] at bound
  omega

end MinHeap

namespace Search

/-- In a checked search that postpones a successor, a node that can be expanded before it is, so
their sum is checked. -/
theorem sum_fits_of_runChecked {limit : Nat} {graph : WeightedGraph Node} {start : Node}
    {next : Node} {distance cost : Nat} (isDistance : Distance graph.edges start node distance)
    (edge : (next, cost) ∈ graph.edges node)
    (notNearer : ∀ other, Distance graph.edges start next other → distance ≤ other)
    (path : Path graph.edges start node steps)
    (lightest : totalWeight steps = distance) (notLeft : next ∉ leaves start steps)
    {final : Search Node} (loop : Loop graph start search)
    (within : Within graph.edges start search.visited search)
    (unvisited : node ∉ search.visited) (nextUnvisited : next ∉ search.visited) {fuel : Nat}
    (enough : search.potential graph ≤ fuel)
    (ran : runChecked limit (.postponing next) graph.edges start fuel search = some final) :
    distance + cost < limit := by
  induction fuel generalizing search with
  | zero =>
    -- something waits, so fuel is left
    obtain ⟨_, _, _, inHeap, _⟩ := loop.frontier path loop.sound.startScore unvisited
    have := List.length_pos_of_mem inHeap
    unfold potential at enough
    omega
  | succ fuel ih =>
    obtain ⟨waiting, least, onPath, inHeap, small⟩ :=
      loop.frontier path loop.sound.startScore unvisited
    unfold runChecked at ran
    cases pops : (MinHeap.postponing next).pop search.visitNext with
    | none =>
      rw [(MinHeap.postponing next).pops _ pops] at inHeap
      cases inHeap
    | some popped =>
      obtain ⟨top, rest⟩ := popped
      have isTop : top ∈ search.visitNext :=
        ((MinHeap.postponing next).takes pops).mem_iff.mpr List.mem_cons_self
      have leastScore := (MinHeap.postponing next).least pops
      simp only [pops, expandChecked_eq] at ran
      split at ran
      swap
      · cases ran
      rename_i fits
      by_cases isNode : top.2 = node
      · -- the node is expanded now, and the edge to the successor is checked
        have topUnvisited : top.2 ∉ search.visited := isNode ▸ unvisited
        have same : top.1 = distance :=
          (loop.popped_distance within isTop leastScore topUnvisited).unique (isNode ▸ isDistance)
        rw [← same]
        exact fits topUnvisited (next, cost) (isNode ▸ edge) nextUnvisited
      by_cases isNext : top.2 = next
      · -- the successor comes first only if nothing else is as near
        exfalso
        have topUnvisited : top.2 ∉ search.visited := isNext ▸ nextUnvisited
        have toNext := loop.popped_distance within isTop leastScore topUnvisited
        rw [isNext] at toNext
        have far := notNearer _ toNext
        have isWaiting : waiting = next :=
          MinHeap.postponing_last pops isNext inHeap (show least ≤ top.1 by omega)
        rcases onPath with left | last
        · exact notLeft (isWaiting ▸ left)
        · exact isNode (isNext.trans (isWaiting.symm.trans last))
      · obtain ⟨nextLoop, uses⟩ := loop.expand pops
        have nextWithin := within.expand loop pops rfl
        have stays : ∀ other, other ≠ top.2 → other ∉ search.visited → other ∉
            (expand graph.edges start { search with visitNext := rest } top).visited := by
          intro other different notVisited
          rw [visited_expand]
          split
          · exact notVisited
          · exact fun member => (List.mem_cons.mp member).elim different notVisited
        exact ih nextLoop nextWithin (stays node (Ne.symm isNode) unvisited)
          (stays next (Ne.symm isNext) nextUnvisited) (by omega) ran

end Search

/-- The checked search succeeds, however ties are broken, exactly if the sums fit. -/
theorem dijkstraChecked_iff (isNode : start ∈ graph.nodes) :
    (∀ heap, (dijkstraChecked limit heap graph start).isSome = true) ↔
      SumsFit limit graph.edges start := by
  have loop := Search.Loop.initial isNode
  have within := Search.Within.initial graph.edges start
  constructor
  · intro succeeds node distance next cost isDistance edge notNearer
    rintro ⟨steps, path, lightest, notLeft⟩
    have ran := succeeds (.postponing next)
    rw [dijkstraChecked, Option.isSome_map, Option.isSome_iff_exists] at ran
    obtain ⟨final, ran⟩ := ran
    exact sum_fits_of_runChecked isDistance edge notNearer path lightest notLeft loop within
      List.not_mem_nil List.not_mem_nil (potential_initial graph start) ran
  · intro fits heap
    rw [dijkstraChecked, runChecked_of_sumsFit fits heap loop within]
    rfl

theorem dijkstraChecked_eq
    (isNode : start ∈ graph.nodes) (fits : SumsFit limit graph.edges start) (heap : MinHeap Node) :
    dijkstraChecked limit heap graph start = some (dijkstraWithFirstHop heap graph start) := by
  rw [dijkstraChecked, runChecked_of_sumsFit fits heap (.initial isNode)
    (.initial graph.edges start)]
  rfl

/-! ## Graphs with few nodes and small weights -/

theorem Search.Within.run (heap : MinHeap Node)
    (within : Search.Within graph.edges start search.visited search)
    (loop : Search.Loop graph start search) (fuel : Nat) {after : Search Node}
    (ran : after = run heap graph.edges start fuel search) :
    Search.Within graph.edges start after.visited after := by
  induction fuel generalizing search with
  | zero =>
    subst ran
    exact within
  | succ fuel ih =>
    unfold Search.run at ran
    split at ran
    · subst ran
      exact within
    · rename_i top rest pops
      exact ih (within.expand loop pops rfl) (loop.expand pops).1 ran

omit [DecidableEq Node] in
theorem Path.leaves_subset {source target : Node}
    (path : Path graph.edges source target steps)
    (isNode : source ∈ graph.nodes) : leaves source steps ⊆ graph.nodes := by
  induction path with
  | nil => exact List.nil_subset _
  | @cons source next target cost steps edge _ ih =>
    have rest := ih (graph.closed source next cost edge)
    exact List.cons_subset.mpr ⟨isNode, rest⟩

omit [DecidableEq Node] in
theorem Path.step_le
    (bounded : ∀ node next cost, (next, cost) ∈ edges node → cost ≤ bound) {source target : Node}
    (path : Path edges source target steps) :
    ∀ step ∈ steps, step.2 ≤ bound := by
  induction path with
  | nil => exact nofun
  | cons edge _ ih =>
    intro step member
    rcases List.mem_cons.mp member with rfl | later
    · exact bounded _ _ _ edge
    · exact ih step later

/-- No distance is larger than one largest edge for every node. -/
theorem distance_le {distance : Nat} (isNode : start ∈ graph.nodes)
    (bounded : ∀ node next cost, (next, cost) ∈ graph.edges node → cost ≤ bound)
    (isDistance : Distance graph.edges start node distance) :
    distance ≤ graph.nodes.dedup.length * bound := by
  have within := (Search.Within.initial graph.edges start).run .leastFirst (.initial isNode)
    graph.fuel rfl
  have isScore := (dijkstra_score_iff .leastFirst graph isNode node distance).mpr isDistance
  obtain ⟨steps, path, rfl, nodup, _⟩ := within node distance isScore
  have inNodes : leaves start steps ⊆ graph.nodes.dedup :=
    List.Subset.trans (Path.leaves_subset path isNode) (List.subset_dedup _)
  have few : steps.length ≤ graph.nodes.dedup.length := by
    rw [← length_leaves start steps]
    exact (nodup.subperm inNodes).length_le
  exact (totalWeight_le (Path.step_le bounded path)).trans (Nat.mul_le_mul_right _ few)

theorem sumsFit_of_bounded (isNode : start ∈ graph.nodes)
    (bounded : ∀ node next cost, (next, cost) ∈ graph.edges node → cost ≤ bound)
    (small : (graph.nodes.dedup.length + 1) * bound < limit) : SumsFit limit graph.edges start := by
  intro node distance next cost isDistance edge _ _
  have far := distance_le isNode bounded isDistance
  have light := bounded node next cost edge
  rw [Nat.succ_mul] at small
  omega

end EasyTier.Route
