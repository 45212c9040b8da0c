import Mathlib.Algebra.BigOperators.Group.Finset.Basic
import EasyTier.Data.AssocMap
import EasyTier.Graph.Walks

/-! # Dijkstra's algorithm with first hops

The search of the route table: a heap of scored nodes, the best scores so far, and for every scored
node the first hop on the way to it. The heap may break ties as it likes.
-/

namespace EasyTier.Route

open Data EasyTier.Graph

universe u

/-- A directed graph with weights, none of whose edges leaves its nodes. -/
structure WeightedGraph (Node : Type u) where
  nodes : List Node
  edges : Edges Node
  closed : ∀ node next cost, (next, cost) ∈ edges node → next ∈ nodes

/-- A binary heap of `MinScored` entries, kept as a list: `pop` takes out an entry of least
score. -/
structure MinHeap (Node : Type u) where
  pop : List (Nat × Node) → Option ((Nat × Node) × List (Nat × Node))
  pops : ∀ heap, pop heap = none → heap = []
  takes : ∀ {heap top rest}, pop heap = some (top, rest) → heap.Perm (top :: rest)
  least : ∀ {heap top rest}, pop heap = some (top, rest) → ∀ entry ∈ heap, top.1 ≤ entry.1

namespace MinHeap

variable {Node : Type u}

/-- Take out the first of the entries with the least score. -/
def popLeast : List (Nat × Node) → Option ((Nat × Node) × List (Nat × Node))
  | [] => none
  | entry :: heap =>
    match popLeast heap with
    | none => some (entry, heap)
    | some (top, rest) =>
      if entry.1 ≤ top.1 then some (entry, heap) else some (top, entry :: rest)

theorem popLeast_eq_none {heap : List (Nat × Node)} (empty : popLeast heap = none) : heap = [] := by
  cases heap with
  | nil => rfl
  | cons entry heap =>
    unfold popLeast at empty
    split at empty
    · cases empty
    split at empty <;> cases empty

theorem popLeast_spec {heap : List (Nat × Node)} {top : Nat × Node} {rest : List (Nat × Node)}
    (popped : popLeast heap = some (top, rest)) :
    heap.Perm (top :: rest) ∧ ∀ entry ∈ heap, top.1 ≤ entry.1 := by
  induction heap generalizing top rest with
  | nil => cases popped
  | cons entry heap ih =>
    unfold popLeast at popped
    split at popped
    · rename_i empty
      cases popped
      simp [popLeast_eq_none empty]
    rename_i least others popsRest
    obtain ⟨perm, bound⟩ := ih popsRest
    split at popped
    · rename_i smaller
      cases popped
      refine ⟨.refl _, fun other member => ?_⟩
      rcases List.mem_cons.mp member with rfl | later
      · exact Nat.le_refl _
      · exact Nat.le_trans smaller (bound other later)
    · cases popped
      refine ⟨(perm.cons entry).trans (.swap _ _ _), fun other member => ?_⟩
      rcases List.mem_cons.mp member with rfl | later
      · omega
      · exact bound other later

/-- The heap that takes equal scores in the order of its list. -/
def leastFirst : MinHeap Node where
  pop := popLeast
  pops := fun _ => popLeast_eq_none
  takes := fun popped => (popLeast_spec popped).1
  least := fun popped => (popLeast_spec popped).2

theorem mem_of_taken {scored rest : List (Nat × Node)} {top : Nat × Node}
    (taken : scored.Perm (top :: rest)) : top ∈ scored ∧ ∀ entry ∈ rest, entry ∈ scored :=
  ⟨taken.mem_iff.mpr List.mem_cons_self, fun _ member =>
    taken.mem_iff.mpr (List.mem_cons_of_mem _ member)⟩

end MinHeap

variable {Node : Type u} [DecidableEq Node]

/-- What `dijkstra_with_first_hop` keeps while it searches. -/
structure Search (Node : Type u) where
  visited : List Node
  scores : AList fun _ : Node => Nat
  firstHop : AList fun _ : Node => Node × Nat
  visitNext : List (Nat × Node)

open Search

namespace Search

/-- The search before the first node is popped. -/
def initial (start : Node) : Search Node where
  visited := []
  scores := AList.singleton start 0
  firstHop := AList.singleton start (start, 0)
  visitNext := [(0, start)]

/-- The first hop of a successor: the successor itself next to the start, else inherited. A node
that is being expanded always has a first hop. -/
def inherit (search : Search Node) (start node next : Node) : Node × Nat :=
  let hop := if node = start then (next, 0) else (search.firstHop.lookup node).getD (next, 0)
  (hop.1, hop.2 + 1)

/-- The loop body for one edge of the popped node. -/
def relaxOne (start node : Node) (nodeScore : Nat) (search : Search Node) (edge : Node × Nat) :
    Search Node :=
  let (next, cost) := edge
  if next ∈ search.visited then
    search
  else
    let nextScore := nodeScore + cost
    if (search.scores.lookup next).all (nextScore < ·) then
      { search with
        scores := search.scores.insert next nextScore
        visitNext := (nextScore, next) :: search.visitNext
        firstHop := search.firstHop.insert next (search.inherit start node next) }
    else search

/-- What happens to a popped entry. -/
def expand (edges : Edges Node) (start : Node) (search : Search Node) (top : Nat × Node) :
    Search Node :=
  if top.2 ∈ search.visited then
    search
  else
    let relaxed := (edges top.2).foldl (relaxOne start top.2 top.1) search
    { relaxed with visited := top.2 :: relaxed.visited }

/-- The loop, bounded by fuel. -/
def run (heap : MinHeap Node) (edges : Edges Node) (start : Node) : Nat → Search Node → Search Node
  | 0, search => search
  | fuel + 1, search =>
    match heap.pop search.visitNext with
    | none => search
    | some (top, rest) =>
      run heap edges start fuel (expand edges start { search with visitNext := rest } top)

end Search

/-- Every edge is pushed at most once, so this many pops empty the heap. -/
def WeightedGraph.fuel (graph : WeightedGraph Node) : Nat :=
  (graph.nodes.dedup.map fun node => (graph.edges node).length).sum + 1

/-- `dijkstra_with_first_hop`. -/
def dijkstraWithFirstHop (heap : MinHeap Node) (graph : WeightedGraph Node) (start : Node) :
    (AList fun _ : Node => Nat) × (AList fun _ : Node => Node × Nat) :=
  let search := run heap graph.edges start graph.fuel (.initial start)
  (search.scores, search.firstHop)

/-! ## The invariant of the search -/

namespace Search

/-- Scores are weights of walks with the recorded first hop, and every scored node is visited, being
expanded or in the heap. -/
structure Sound (edges : Edges Node) (start : Node) (expanding : Node → Prop)
    (search : Search Node) : Prop where
  startScore : search.scores.lookup start = some 0
  startHop : search.firstHop.lookup start = some (start, 0)
  reached : ∀ node score, node ≠ start → search.scores.lookup node = some score →
    ∃ hop length, search.firstHop.lookup node = some (hop, length) ∧
      StartsVia edges start hop node score
  scored : ∀ node hop, search.firstHop.lookup node = some hop →
    ∃ score, search.scores.lookup node = some score
  queued : ∀ entry ∈ search.visitNext, ∃ score, search.scores.lookup entry.2 = some score ∧
    score ≤ entry.1
  waits : ∀ node score, search.scores.lookup node = some score →
    node ∈ search.visited ∨ expanding node ∨ (score, node) ∈ search.visitNext

/-- The edges of visited nodes are relaxed, and no visited node has a larger score than one that
waits. -/
structure Settled (edges : Edges Node) (search : Search Node) : Prop where
  relaxed : ∀ node ∈ search.visited, ∃ score, search.scores.lookup node = some score ∧
    ∀ next cost, (next, cost) ∈ edges node →
      ∃ nextScore, search.scores.lookup next = some nextScore ∧ nextScore ≤ score + cost
  ordered : ∀ node ∈ search.visited, ∀ score, search.scores.lookup node = some score →
    ∀ entry ∈ search.visitNext, score ≤ entry.1

/-- What relaxing some edges of a node does to the search. -/
structure Relaxes (edges : Edges Node) (start node : Node) (nodeScore : Nat)
    (before after : Search Node) (done : List (Node × Nat)) : Prop where
  sound : Sound edges start (· = node) after
  expanded : after.scores.lookup node = some nodeScore
  visited : after.visited = before.visited
  drops : ∀ other score, before.scores.lookup other = some score →
    ∃ better, after.scores.lookup other = some better ∧ better ≤ score
  keeps : ∀ other ∈ before.visited, after.scores.lookup other = before.scores.lookup other
  covers : ∀ edge ∈ done, edge.1 ∈ before.visited ∨
    ∃ score, after.scores.lookup edge.1 = some score ∧ score ≤ nodeScore + edge.2
  pushed : ∀ entry ∈ after.visitNext, entry ∈ before.visitNext ∨
    nodeScore ≤ entry.1 ∧ ∃ cost, (entry.2, cost) ∈ edges node
  length : after.visitNext.length ≤ before.visitNext.length + done.length

variable {edges : Edges Node} {node next : Node} {nodeScore cost : Nat} {expanding : Node → Prop}
  {search before after : Search Node} {done : List (Node × Nat)} {top : Nat × Node} {start : Node}
  {graph : WeightedGraph Node} {rest : List (Nat × Node)} {edge : Node × Nat}

section

variable (sound : Sound edges start expanding search)
    (expanded : search.scores.lookup node = some nodeScore)
include sound expanded

/-- A successor of the start gets a record of its own, any other one that of the expanded node with
one edge more. -/
theorem Sound.inherit_cases (next : Node) :
    (node = start ∧ nodeScore = 0 ∧ search.inherit start node next = (next, 1)) ∨
      (node ≠ start ∧ ∃ hop length, search.firstHop.lookup node = some (hop, length) ∧
        StartsVia edges start hop node nodeScore ∧
        search.inherit start node next = (hop, length + 1)) := by
  unfold inherit
  by_cases atStart : node = start
  · subst atStart
    rw [sound.startScore, Option.some.injEq] at expanded
    rw [if_pos rfl]
    exact .inl ⟨rfl, expanded.symm, rfl⟩
  · obtain ⟨hop, length, recorded, via⟩ := sound.reached node nodeScore atStart expanded
    rw [if_neg atStart, recorded]
    exact .inr ⟨atStart, hop, length, rfl, via, rfl⟩

/-- The first hop a relaxed successor gets is that of a walk through the node. -/
theorem Sound.inherit (edge : (next, cost) ∈ edges node) :
    StartsVia edges start (search.inherit start node next).1 next (nodeScore + cost) := by
  rcases sound.inherit_cases expanded next with ⟨rfl, rfl, record⟩ | ⟨_, hop, length, _, via,
    record⟩
  · rw [record]
    exact ⟨cost, 0, edge, .nil next, by omega⟩
  · rw [record]
    exact via.snoc edge

end

section

variable (relaxes : Relaxes edges start node nodeScore before after done)
include relaxes

/-- An edge that does not improve anything is done all the same. -/
theorem Relaxes.skip (covered : edge.1 ∈ before.visited ∨
      ∃ score, after.scores.lookup edge.1 = some score ∧ score ≤ nodeScore + edge.2) :
    Relaxes edges start node nodeScore before after (done ++ [edge]) := by
  refine { relaxes with covers := ?_, length := ?_ }
  · intro other member
    rcases List.mem_append.mp member with earlier | last
    · exact relaxes.covers other earlier
    · rw [List.mem_singleton.mp last]
      exact covered
  · have := relaxes.length
    rw [List.length_append]
    omega

omit relaxes in
/-- Writing a better score for one node only lowers scores. -/
theorem exists_lookup_insert_le {scores : AList fun _ : Node => Nat} {other : Node}
    {improved score bound : Nat} (better : ∀ old, scores.lookup next = some old → improved < old)
    (isScore : scores.lookup other = some score) (bounded : score ≤ bound) :
    ∃ lower, (scores.insert next improved).lookup other = some lower ∧ lower ≤ bound := by
  rw [lookup_insert_eq]
  split
  · rename_i same
    rw [same] at isScore
    exact ⟨improved, rfl, Nat.le_trans (Nat.le_of_lt (better score isScore)) bounded⟩
  · exact ⟨score, isScore, bounded⟩

omit relaxes in
/-- A better walk to a successor of the expanded node leaves the search sound. -/
theorem Sound.improve (sound : Sound edges start (· = node) search)
    (expanded : search.scores.lookup node = some nodeScore) (edge : (next, cost) ∈ edges node)
    (better : ∀ old, search.scores.lookup next = some old → nodeScore + cost < old) :
    Sound edges start (· = node)
      { search with
        scores := search.scores.insert next (nodeScore + cost)
        visitNext := (nodeScore + cost, next) :: search.visitNext
        firstHop := search.firstHop.insert next (search.inherit start node next) } := by
  have notStart : start ≠ next := by
    rintro rfl
    have := better 0 sound.startScore
    omega
  refine ⟨?_, ?_, ?_, ?_, ?_, ?_⟩
  · rw [lookup_insert_eq, if_neg notStart]
    exact sound.startScore
  · rw [lookup_insert_eq, if_neg notStart]
    exact sound.startHop
  · intro other score away isScore
    rw [lookup_insert_eq] at isScore ⊢
    split at isScore
    · rename_i same
      cases isScore
      rw [if_pos same, same]
      exact ⟨_, _, rfl, sound.inherit expanded edge⟩
    · rename_i different
      rw [if_neg different]
      exact sound.reached other score away isScore
  · intro other hop isHop
    rw [lookup_insert_eq] at isHop ⊢
    split at isHop
    · rename_i same
      exact ⟨_, if_pos same⟩
    · rename_i different
      rw [if_neg different]
      exact sound.scored other hop isHop
  · intro entry member
    rcases List.mem_cons.mp member with rfl | earlier
    · exact ⟨_, AList.lookup_insert _, Nat.le_refl _⟩
    · obtain ⟨score, isScore, bound⟩ := sound.queued entry earlier
      exact exists_lookup_insert_le better isScore bound
  · intro other score isScore
    rw [lookup_insert_eq] at isScore
    split at isScore
    · rename_i same
      cases isScore
      rw [same]
      exact .inr (.inr List.mem_cons_self)
    · exact (sound.waits other score isScore).imp_right (.imp_right (List.mem_cons_of_mem _))

/-- Relaxing an edge whose target gets a better score. -/
theorem Relaxes.improve
    (edge : (next, cost) ∈ edges node) (unvisited : next ∉ after.visited)
    (better : ∀ old, after.scores.lookup next = some old → nodeScore + cost < old) :
    Relaxes edges start node nodeScore before
      { after with
        scores := after.scores.insert next (nodeScore + cost)
        visitNext := (nodeScore + cost, next) :: after.visitNext
        firstHop := after.firstHop.insert next (after.inherit start node next) }
      (done ++ [(next, cost)]) := by
  -- the expanded node cannot get a better score
  have notNode : node ≠ next := by
    rintro rfl
    have := better nodeScore relaxes.expanded
    omega
  refine ⟨relaxes.sound.improve relaxes.expanded edge better, ?_, relaxes.visited, ?_, ?_, ?_, ?_,
    ?_⟩
  · rw [lookup_insert_eq, if_neg notNode]
    exact relaxes.expanded
  · intro other score isScore
    obtain ⟨middle, isMiddle, bound⟩ := relaxes.drops other score isScore
    exact exists_lookup_insert_le better isMiddle bound
  · intro other isVisited
    have different : other ≠ next := by
      rintro rfl
      exact unvisited (relaxes.visited ▸ isVisited)
    rw [lookup_insert_eq, if_neg different]
    exact relaxes.keeps other isVisited
  · intro other member
    rcases List.mem_append.mp member with earlier | last
    · refine (relaxes.covers other earlier).imp_right ?_
      rintro ⟨score, isScore, bound⟩
      exact exists_lookup_insert_le better isScore bound
    · rw [List.mem_singleton.mp last]
      exact .inr ⟨_, AList.lookup_insert _, Nat.le_refl _⟩
  · intro entry member
    rcases List.mem_cons.mp member with rfl | earlier
    · exact .inr ⟨Nat.le_add_right _ _, cost, edge⟩
    · exact relaxes.pushed entry earlier
  · have := relaxes.length
    simp only [List.length_cons, List.length_append, List.length_nil]
    omega

theorem Relaxes.relaxOne (isEdge : edge ∈ edges node) :
    Relaxes edges start node nodeScore before (relaxOne start node nodeScore after edge)
      (done ++ [edge]) := by
  obtain ⟨next, cost⟩ := edge
  unfold Search.relaxOne
  dsimp only
  split
  · rename_i isVisited
    exact relaxes.skip (.inl (relaxes.visited ▸ isVisited))
  rename_i unvisited
  split
  · rename_i better
    refine relaxes.improve isEdge unvisited fun old isOld => ?_
    simpa [isOld] using better
  · rename_i notBetter
    refine relaxes.skip (.inr ?_)
    cases isOld : after.scores.lookup next with
    | none => simp [isOld] at notBetter
    | some old => exact ⟨old, rfl, by simpa [isOld] using notBetter⟩

/-- Relaxing the edges one after the other. -/
theorem Relaxes.relaxAll {rest : List (Node × Nat)}
    (areEdges : ∀ edge ∈ rest, edge ∈ edges node) :
    Relaxes edges start node nodeScore before
      (rest.foldl (Search.relaxOne start node nodeScore) after) (done ++ rest) := by
  induction rest generalizing after done with
  | nil => simpa using relaxes
  | cons edge rest ih =>
    have next := ih (relaxes.relaxOne (areEdges edge List.mem_cons_self))
      fun other later => areEdges other (List.mem_cons_of_mem _ later)
    simpa using next

end

/-- What holds between two pops. -/
structure Loop (graph : WeightedGraph Node) (start : Node) (search : Search Node) : Prop where
  sound : Sound graph.edges start (fun _ => False) search
  settled : Settled graph.edges search
  inside : ∀ entry ∈ search.visitNext, entry.2 ∈ graph.nodes

theorem Loop.initial (isNode : start ∈ graph.nodes) : Loop graph start (.initial start) := by
  have atStart : (Search.initial start).scores.lookup start = some 0 := by
    simp [Search.initial, lookup_singleton_eq]
  have onlyStart : ∀ node, node ≠ start → (Search.initial start).scores.lookup node = none ∧
      (Search.initial start).firstHop.lookup node = none := by
    intro node away
    simp [Search.initial, lookup_singleton_eq, away]
  refine ⟨⟨atStart, ?_, ?_, ?_, ?_, ?_⟩, ⟨nofun, nofun⟩, ?_⟩
  · simp [Search.initial, lookup_singleton_eq]
  · intro node score away isScore
    rw [(onlyStart node away).1] at isScore
    cases isScore
  · intro node hop isHop
    by_cases away : node = start
    · subst away
      exact ⟨0, atStart⟩
    · rw [(onlyStart node away).2] at isHop
      cases isHop
  · intro entry member
    rw [List.mem_singleton.mp member]
    exact ⟨0, atStart, Nat.le_refl 0⟩
  · intro node score isScore
    by_cases away : node = start
    · subst away
      rw [atStart] at isScore
      cases isScore
      exact .inr (.inr List.mem_cons_self)
    · rw [(onlyStart node away).1] at isScore
      cases isScore
  · intro entry member
    rw [List.mem_singleton.mp member]
    exact isNode

/-- A popped entry of a node that is not visited carries the score of the node. -/
theorem Loop.popped_score (loop : Loop graph start search) (member : top ∈ search.visitNext)
    (least : ∀ entry ∈ search.visitNext, top.1 ≤ entry.1) (unvisited : top.2 ∉ search.visited) :
    search.scores.lookup top.2 = some top.1 := by
  obtain ⟨score, isScore, bound⟩ := loop.sound.queued top member
  rcases loop.sound.waits top.2 score isScore with isVisited | ⟨⟨⟩⟩ | waits
  · exact absurd isVisited unvisited
  have := least _ waits
  have equal : score = top.1 := by
    omega
  rw [isScore, equal]

/-- Expanding a node keeps the invariant. -/
theorem Loop.expandNode (loop : Loop graph start search)
    (taken : search.visitNext.Perm (top :: rest))
    (least : ∀ entry ∈ search.visitNext, top.1 ≤ entry.1) {relaxed : Search Node}
    (relaxes : Relaxes graph.edges start top.2 top.1 { search with visitNext := rest } relaxed
      (graph.edges top.2)) :
    Loop graph start { relaxed with visited := top.2 :: relaxed.visited } := by
  obtain ⟨isTop, inHeap⟩ := MinHeap.mem_of_taken taken
  have stays : relaxed.visited = search.visited := relaxes.visited
  have sound := relaxes.sound
  refine ⟨⟨sound.startScore, sound.startHop, sound.reached, sound.scored, sound.queued, ?_⟩,
    ⟨?_, ?_⟩, ?_⟩
  · intro node score isScore
    rcases sound.waits node score isScore with isVisited | rfl | waits
    · exact .inl (List.mem_cons_of_mem _ isVisited)
    · exact .inl List.mem_cons_self
    · exact .inr (.inr waits)
  · intro node isVisited
    rcases List.mem_cons.mp isVisited with rfl | earlier
    · refine ⟨top.1, relaxes.expanded, fun next cost edge => ?_⟩
      rcases relaxes.covers _ edge with before | covered
      · -- the edge leads back to a visited node, whose score is not larger
        obtain ⟨score, isScore, _⟩ := loop.settled.relaxed next before
        refine ⟨score, (relaxes.keeps next before).trans isScore, ?_⟩
        exact Nat.le_trans (loop.settled.ordered next before score isScore top isTop)
          (Nat.le_add_right _ _)
      · exact covered
    · rw [stays] at earlier
      obtain ⟨score, isScore, done⟩ := loop.settled.relaxed node earlier
      refine ⟨score, (relaxes.keeps node earlier).trans isScore, fun next cost edge => ?_⟩
      obtain ⟨nextScore, isNext, bound⟩ := done next cost edge
      obtain ⟨better, isBetter, smaller⟩ := relaxes.drops next nextScore isNext
      exact ⟨better, isBetter, Nat.le_trans smaller bound⟩
  · intro node isVisited score isScore entry member
    have aboveTop : top.1 ≤ entry.1 := by
      rcases relaxes.pushed entry member with old | ⟨above, _⟩
      · exact least entry (inHeap entry old)
      · exact above
    rcases List.mem_cons.mp isVisited with rfl | earlier
    · have expanded := relaxes.expanded
      rw [isScore, Option.some.injEq] at expanded
      omega
    · rw [stays] at earlier
      have before : search.scores.lookup node = some score :=
        (relaxes.keeps node earlier).symm.trans isScore
      exact Nat.le_trans (loop.settled.ordered node earlier score before top isTop) aboveTop
  · intro entry member
    rcases relaxes.pushed entry member with old | ⟨_, cost, edge⟩
    · exact loop.inside entry (inHeap entry old)
    · exact graph.closed top.2 entry.2 cost edge

/-- The pops that are left at most: what is in the heap, and the edges that can still be pushed. -/
def potential (graph : WeightedGraph Node) (search : Search Node) : Nat :=
  search.visitNext.length +
    ∑ node ∈ graph.nodes.toFinset \ search.visited.toFinset, (graph.edges node).length

theorem potential_initial (graph : WeightedGraph Node) (start : Node) :
    (initial start).potential graph ≤ graph.fuel := by
  have all : ∑ node ∈ graph.nodes.toFinset, (graph.edges node).length =
      (graph.nodes.dedup.map fun node => (graph.edges node).length).sum := by
    rw [← List.sum_toFinset _ (List.nodup_dedup _)]
    congr 1
    ext node
    simp
  simp only [potential, initial, WeightedGraph.fuel, List.toFinset_nil, Finset.sdiff_empty,
    List.length_cons, List.length_nil, all]
  omega

section

variable (loop : Loop graph start search)
    (taken : search.visitNext.Perm (top :: rest))
include loop taken

/-- A scored node is visited, just popped or still in the heap. -/
theorem Loop.waits_popped (node : Node) (score : Nat)
    (isScore : search.scores.lookup node = some score) :
    node ∈ search.visited ∨ node = top.2 ∨ (score, node) ∈ rest := by
  rcases loop.sound.waits node score isScore with isVisited | ⟨⟨⟩⟩ | inOld
  · exact .inl isVisited
  · rcases List.mem_cons.mp (taken.mem_iff.mp inOld) with isTop | later
    · exact .inr (.inl (congrArg Prod.snd isTop))
    · exact .inr (.inr later)

/-- A popped node that is not visited is ready to have its edges relaxed. -/
theorem Loop.unrelaxed
    (least : ∀ entry ∈ search.visitNext, top.1 ≤ entry.1) (unvisited : top.2 ∉ search.visited) :
    Relaxes graph.edges start top.2 top.1 { search with visitNext := rest }
      { search with visitNext := rest } [] := by
  have sound := loop.sound
  obtain ⟨isTop, inHeap⟩ := MinHeap.mem_of_taken taken
  refine ⟨⟨sound.startScore, sound.startHop, sound.reached, sound.scored, ?_,
      loop.waits_popped taken⟩, loop.popped_score isTop least unvisited, rfl, ?_, ?_, ?_, ?_, ?_⟩
  · exact fun entry member => sound.queued entry (inHeap entry member)
  · exact fun other score isScore => ⟨score, isScore, Nat.le_refl _⟩
  · exact fun _ _ => rfl
  · exact fun _ none => absurd none List.not_mem_nil
  · exact fun entry member => .inl member
  · exact Nat.le_refl _

end

/-- A pop and what it leads to keep the invariant and use the potential up. -/
theorem Loop.expand (loop : Loop graph start search) {heap : MinHeap Node}
    (pops : heap.pop search.visitNext = some (top, rest)) :
    Loop graph start (expand graph.edges start { search with visitNext := rest } top) ∧
      (expand graph.edges start { search with visitNext := rest } top).potential graph <
        search.potential graph := by
  have taken := heap.takes pops
  have least := heap.least pops
  obtain ⟨isTop, inHeap⟩ := MinHeap.mem_of_taken taken
  have size : search.visitNext.length = rest.length + 1 := by
    rw [taken.length_eq, List.length_cons]
  have sound := loop.sound
  unfold Search.expand
  split
  · rename_i isVisited
    refine ⟨⟨⟨sound.startScore, sound.startHop, sound.reached, sound.scored, ?_, ?_⟩, ⟨?_, ?_⟩, ?_⟩,
      ?_⟩
    · exact fun entry member => sound.queued entry (inHeap entry member)
    · intro node score isScore
      rcases loop.waits_popped taken node score isScore with before | rfl | later
      · exact .inl before
      · exact .inl isVisited
      · exact .inr (.inr later)
    · exact loop.settled.relaxed
    · exact fun node before score isScore entry member =>
        loop.settled.ordered node before score isScore entry (inHeap entry member)
    · exact fun entry member => loop.inside entry (inHeap entry member)
    · simp only [potential]
      omega
  · rename_i unvisited
    have relaxes := (loop.unrelaxed taken least unvisited).relaxAll fun (edge : Node × Nat)
        (isEdge : edge ∈ graph.edges top.2) =>
      isEdge
    rw [List.nil_append] at relaxes
    refine ⟨loop.expandNode taken least relaxes, ?_⟩
    have length := relaxes.length
    have stays := relaxes.visited
    have isLeft : top.2 ∈ graph.nodes.toFinset \ search.visited.toFinset := by
      simpa using ⟨loop.inside top isTop, unvisited⟩
    have split := Finset.add_sum_erase (graph.nodes.toFinset \ search.visited.toFinset)
      (fun node => (graph.edges node).length) isLeft
    simp only [potential, stays, List.toFinset_cons, Finset.sdiff_insert]
    dsimp only at length split
    omega

/-- With enough fuel the loop ends with an empty heap. -/
theorem Loop.run (heap : MinHeap Node) (loop : Loop graph start search) {fuel : Nat}
    (enough : search.potential graph ≤ fuel) :
    Loop graph start (run heap graph.edges start fuel search) ∧
      (run heap graph.edges start fuel search).visitNext = [] := by
  induction fuel generalizing search with
  | zero =>
    unfold potential at enough
    have empty : search.visitNext.length = 0 := by omega
    exact ⟨loop, List.eq_nil_of_length_eq_zero empty⟩
  | succ fuel ih =>
    unfold run
    split
    · rename_i pops
      exact ⟨loop, heap.pops _ pops⟩
    · rename_i top rest pops
      obtain ⟨next, uses⟩ := loop.expand pops
      exact ih next (by omega)

/-- Once the heap is empty, scores grow along walks at most by their weight. -/
theorem Loop.score_le
    (loop : Loop graph start search) (empty : search.visitNext = []) {source target : Node}
    {weight : Nat} (walk : Walk graph.edges source target weight) {score : Nat}
    (isScore : search.scores.lookup source = some score) :
    ∃ last, search.scores.lookup target = some last ∧ last ≤ score + weight := by
  induction walk generalizing score with
  | nil node => exact ⟨score, isScore, Nat.le_refl _⟩
  | @cons source next target cost rest edge _ ih =>
    rcases loop.sound.waits source score isScore with isVisited | ⟨⟨⟩⟩ | waits
    · obtain ⟨same, isSame, relaxed⟩ := loop.settled.relaxed source isVisited
      rw [isScore, Option.some.injEq] at isSame
      obtain ⟨nextScore, isNext, bound⟩ := relaxed next cost edge
      obtain ⟨last, isLast, total⟩ := ih isNext
      exact ⟨last, isLast, by omega⟩
    · rw [empty] at waits
      cases waits

/-- Every first hop comes with the number of edges of a path that realises the score. -/
def Counted (edges : Edges Node) (start : Node) (search : Search Node) : Prop :=
  ∀ node score hop length, node ≠ start → search.scores.lookup node = some score →
    search.firstHop.lookup node = some (hop, length) → PathVia edges start hop node score length

theorem Counted.initial (edges : Edges Node) (start : Node) :
    Counted edges start (.initial start) := by
  intro node score hop length away isScore
  simp [Search.initial, lookup_singleton_eq, away] at isScore

/-- The record a successor inherits is that of the path through the expanded node, whose own record
does not change any more. -/
theorem Counted.inherit (counted : Counted edges start search)
    (sound : Sound edges start expanding search)
    (expanded : search.scores.lookup node = some nodeScore) (edge : (next, cost) ∈ edges node) :
    PathVia edges start (search.inherit start node next).1 next (nodeScore + cost)
      (search.inherit start node next).2 := by
  rcases sound.inherit_cases expanded next with
    ⟨rfl, rfl, record⟩ | ⟨away, hop, length, recorded, _, record⟩
  · rw [record]
    exact ⟨[(next, cost)], .cons edge (.nil next), by simp, rfl, rfl⟩
  · rw [record]
    exact (counted node nodeScore hop length away expanded recorded).snoc edge

theorem Counted.relaxOne (counted : Counted edges start after)
    (relaxes : Relaxes edges start node nodeScore before after done) (isEdge : edge ∈ edges node) :
    Counted edges start (relaxOne start node nodeScore after edge) := by
  obtain ⟨next, cost⟩ := edge
  unfold Search.relaxOne
  dsimp only
  split
  · exact counted
  split
  · intro other score hop length away isScore isHop
    rw [lookup_insert_eq] at isScore isHop
    by_cases same : other = next
    · subst same
      rw [if_pos rfl, Option.some.injEq] at isScore isHop
      subst isScore
      have inherited := counted.inherit relaxes.sound relaxes.expanded isEdge
      rw [isHop] at inherited
      exact inherited
    · rw [if_neg same] at isScore isHop
      exact counted other score hop length away isScore isHop
  · exact counted

theorem Counted.relaxAll {rest : List (Node × Nat)} (counted : Counted edges start after)
    (relaxes : Relaxes edges start node nodeScore before after done)
    (areEdges : ∀ edge ∈ rest, edge ∈ edges node) :
    Counted edges start (rest.foldl (Search.relaxOne start node nodeScore) after) := by
  induction rest generalizing after done with
  | nil => exact counted
  | cons edge rest ih =>
    have isEdge := areEdges edge List.mem_cons_self
    exact ih (counted.relaxOne relaxes isEdge) (relaxes.relaxOne isEdge)
      fun other later => areEdges other (List.mem_cons_of_mem _ later)

theorem Counted.expand (counted : Counted graph.edges start search) (loop : Loop graph start search)
    {heap : MinHeap Node}
    (pops : heap.pop search.visitNext = some (top, rest)) :
    Counted graph.edges start
      (expand graph.edges start { search with visitNext := rest } top) := by
  unfold Search.expand
  split
  · exact counted
  · rename_i unvisited
    have ready := loop.unrelaxed (heap.takes pops) (heap.least pops) unvisited
    have counted : Counted graph.edges start { search with visitNext := rest } := counted
    exact counted.relaxAll ready fun _ isEdge => isEdge

theorem Counted.run (heap : MinHeap Node) (counted : Counted graph.edges start search)
    (loop : Loop graph start search) (fuel : Nat) :
    Counted graph.edges start (run heap graph.edges start fuel search) := by
  induction fuel generalizing search with
  | zero => exact counted
  | succ fuel ih =>
    unfold run
    split
    · exact counted
    · rename_i top rest pops
      exact ih (counted.expand loop pops) (loop.expand pops).1

end Search

/-! ## What the algorithm computes -/

section Specification

variable (heap : MinHeap Node) (graph : WeightedGraph Node) {start : Node}
  (isNode : start ∈ graph.nodes)
include isNode

/-- The state the loop ends in. -/
theorem dijkstra_loop :
    Search.Loop graph start (run heap graph.edges start graph.fuel (.initial start)) ∧
      (run heap graph.edges start graph.fuel (.initial start)).visitNext = [] :=
  (Search.Loop.initial isNode).run heap (potential_initial graph start)

/-- Scores are distances, and every reachable node has one. -/
theorem dijkstra_score_iff (node : Node) (score : Nat) :
    (dijkstraWithFirstHop heap graph start).1.lookup node = some score ↔
      Distance graph.edges start node score := by
  obtain ⟨loop, empty⟩ := dijkstra_loop heap graph isNode
  have least : ∀ found, (dijkstraWithFirstHop heap graph start).1.lookup node = some found →
      Distance graph.edges start node found := by
    intro found isFound
    constructor
    · by_cases atStart : node = start
      · subst atStart
        have isZero : 0 = found := Option.some.inj (loop.sound.startScore.symm.trans isFound)
        subst isZero
        exact Walk.nil node
      · obtain ⟨hop, length, _, via⟩ := loop.sound.reached node found atStart isFound
        exact via.walk
    · intro weight walk
      obtain ⟨last, isLast, bound⟩ := loop.score_le empty walk loop.sound.startScore
      have same : found = last := Option.some.inj (isFound.symm.trans isLast)
      omega
  constructor
  · exact least score
  · intro distance
    obtain ⟨last, isLast, _⟩ := loop.score_le empty distance.1 loop.sound.startScore
    have same : last = score := (least last isLast).unique distance
    rw [← same]
    exact isLast

variable {node : Node}

/-- The first hop recorded for a node is the first hop of a lightest walk to it. -/
theorem dijkstra_first_hop {hop : Node} {length : Nat} (away : node ≠ start)
    (recorded : (dijkstraWithFirstHop heap graph start).2.lookup node = some (hop, length)) :
    ∃ score, Distance graph.edges start node score ∧
      StartsVia graph.edges start hop node score := by
  obtain ⟨loop, empty⟩ := dijkstra_loop heap graph isNode
  obtain ⟨score, isScore⟩ := loop.sound.scored node _ recorded
  obtain ⟨same, count, again, via⟩ := loop.sound.reached node score away isScore
  have equal : (hop, length) = (same, count) := Option.some.inj (recorded.symm.trans again)
  cases equal
  exact ⟨score, (dijkstra_score_iff heap graph isNode node score).mp isScore, via⟩

/-- Every reachable node has a first hop. -/
theorem dijkstra_first_hop_complete {weight : Nat} (walk : Walk graph.edges start node weight) :
    ∃ hop, (dijkstraWithFirstHop heap graph start).2.lookup node = some hop := by
  obtain ⟨loop, _⟩ := dijkstra_loop heap graph isNode
  obtain ⟨score, distance, _⟩ := walk.distance
  by_cases atStart : node = start
  · subst atStart
    exact ⟨_, loop.sound.startHop⟩
  · obtain ⟨hop, length, recorded, _⟩ := loop.sound.reached node score atStart
      ((dijkstra_score_iff heap graph isNode node score).mpr distance)
    exact ⟨_, recorded⟩

/-- The record of a node other than the start is realised by a lightest path to it. -/
theorem dijkstra_path {score : Nat}
    (away : node ≠ start) (distance : Distance graph.edges start node score) :
    ∃ hop length, (dijkstraWithFirstHop heap graph start).2.lookup node = some (hop, length) ∧
      PathVia graph.edges start hop node score length := by
  obtain ⟨loop, _⟩ := dijkstra_loop heap graph isNode
  have counted := (Search.Counted.initial graph.edges start).run heap (.initial isNode) graph.fuel
  have isScore := (dijkstra_score_iff heap graph isNode node score).mpr distance
  obtain ⟨hop, length, recorded, _⟩ := loop.sound.reached node score away isScore
  exact ⟨hop, length, recorded, counted node score hop length away isScore recorded⟩

omit isNode

end Specification

/-- The scores are the least weights of paths, for exactly the nodes that paths lead to, and the
record of a node is the first hop and the length of a path of that weight. -/
theorem dijkstra_with_first_hop_correct (heap : MinHeap Node) (graph : WeightedGraph Node)
    {start : Node} (isNode : start ∈ graph.nodes) :
    (∀ node, ((dijkstraWithFirstHop heap graph start).1.lookup node).isSome = true ↔
      ∃ steps, Path graph.edges start node steps) ∧
    (∀ node score, (dijkstraWithFirstHop heap graph start).1.lookup node = some score →
      IsLeast {total | ∃ steps, Path graph.edges start node steps ∧ totalWeight steps = total}
        score) ∧
    (∀ node score, node ≠ start →
      (dijkstraWithFirstHop heap graph start).1.lookup node = some score →
      ∃ hop length, (dijkstraWithFirstHop heap graph start).2.lookup node = some (hop, length) ∧
        ∃ steps, Path graph.edges start node steps ∧ totalWeight steps = score ∧
          steps.length = length ∧ steps.head?.map (·.1) = some hop) := by
  have isDistance := dijkstra_score_iff heap graph isNode
  refine ⟨?_, ?_, ?_⟩
  · intro node
    rw [Option.isSome_iff_exists]
    constructor
    · rintro ⟨score, isScore⟩
      obtain ⟨steps, path, _⟩ := ((isDistance node score).mp isScore).1.path
      exact ⟨steps, path⟩
    · rintro ⟨steps, path⟩
      obtain ⟨least, distance, _⟩ := path.walk.distance
      exact ⟨least, (isDistance node least).mpr distance⟩
  · intro node score isScore
    obtain ⟨walk, least⟩ := (isDistance node score).mp isScore
    refine ⟨walk.path, ?_⟩
    rintro _ ⟨steps, path, rfl⟩
    exact least path.walk
  · intro node score away isScore
    exact dijkstra_path heap graph isNode away ((isDistance node score).mp isScore)

/-- Three nodes: two cheap edges against one expensive edge, and an edge without cost back. -/
private def triangle : WeightedGraph Nat where
  nodes := [1, 2, 3]
  edges := fun node =>
    if node = 1 then [(3, 9), (2, 2)] else if node = 2 then [(3, 2), (1, 0)] else []
  closed := by
    intro node next cost edge
    split at edge
    · rcases List.mem_pair.mp edge with same | same <;> cases same <;> decide
    · split at edge
      · rcases List.mem_pair.mp edge with same | same <;> cases same <;> decide
      · cases edge

theorem triangle_paths :
    (dijkstraWithFirstHop MinHeap.leastFirst triangle 1).2.lookup 3 = some (2, 2) ∧
    ∃ steps, Path triangle.edges 1 3 steps ∧ totalWeight steps = 4 ∧ steps.length = 2 ∧
      steps.head?.map (·.1) = some 2 := by
  have isScore : (dijkstraWithFirstHop MinHeap.leastFirst triangle 1).1.lookup 3 = some 4 := by
    decide +kernel
  have isHop : (dijkstraWithFirstHop MinHeap.leastFirst triangle 1).2.lookup 3 = some (2, 2) := by
    decide +kernel
  refine ⟨isHop, ?_⟩
  obtain ⟨_, _, recorded, realised⟩ :=
    (dijkstra_with_first_hop_correct MinHeap.leastFirst triangle
      (show (1 : Nat) ∈ triangle.nodes by decide)).2.2 3 4 (by decide) isScore
  cases recorded
  exact realised

end EasyTier.Route
