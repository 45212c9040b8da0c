import Mathlib.Algebra.Ring.Nat
import Mathlib.Order.Bounds.Basic
import Mathlib.Data.Nat.Find
import Mathlib.Data.List.Chain

/-! # Weighted walks and hop-by-hop forwarding

Every node may see a graph of its own. If the nodes forward along shortest walks of their own
graphs, and each graph contains the edges the others use away from their own start, the distance to
the target drops with every hop, so forwarding ends at the target and passes no node twice.
-/

namespace EasyTier.Graph

universe u

variable {Node : Type u}

/-- The edges that leave each node, with their weights. -/
abbrev Edges (Node : Type u) := Node → List (Node × Nat)

/-- A walk with its total weight. -/
inductive Walk (edges : Edges Node) : Node → Node → Nat → Prop
  | nil (node : Node) : Walk edges node node 0
  | cons {source next target : Node} {cost rest : Nat} (edge : (next, cost) ∈ edges source)
      (tail : Walk edges next target rest) : Walk edges source target (cost + rest)

namespace Walk

variable {edges : Edges Node} {source target : Node}

theorem append {middle : Node} {first second : Nat}
    (walk : Walk edges source middle first) (tail : Walk edges middle target second) :
    Walk edges source target (first + second) := by
  induction walk with
  | nil node =>
    rw [Nat.zero_add]
    exact tail
  | cons edge _ ih =>
    rw [Nat.add_assoc]
    exact .cons edge (ih tail)

theorem snoc {last : Node} {weight cost : Nat} (walk : Walk edges source last weight)
    (edge : (target, cost) ∈ edges last) : Walk edges source target (weight + cost) :=
  walk.append (.cons edge (.nil target))

/-- A walk stays within another graph that has the same edges away from a start, or passes that
start and gets to the target from there no longer than before. -/
theorem within {other : Edges Node} {start : Node}
    (shared : ∀ node, node ≠ start → edges node ⊆ other node) {weight : Nat}
    (walk : Walk edges source target weight) :
    Walk other source target weight ∨ ∃ rest, rest ≤ weight ∧ Walk edges start target rest := by
  induction walk with
  | nil node => exact .inl (.nil node)
  | @cons source next target cost rest edge tail ih =>
    by_cases isStart : source = start
    · subst isStart
      exact .inr ⟨cost + rest, Nat.le_refl _, .cons edge tail⟩
    · rcases ih with stays | ⟨shorter, bound, returns⟩
      · exact .inl (.cons (shared source isStart edge) stays)
      · exact .inr ⟨shorter, Nat.le_trans bound (Nat.le_add_left rest cost), returns⟩

end Walk

/-- The weight of a lightest walk. -/
def Distance (edges : Edges Node) (source target : Node) (weight : Nat) : Prop :=
  IsLeast {total | Walk edges source target total} weight

variable {source last : Node} {weight cost : Nat} {edges : Edges Node} {target hop : Node}
  {steps : List (Node × Nat)}

theorem Walk.distance (walk : Walk edges source target weight) :
    ∃ least, Distance edges source target least ∧ least ≤ weight := by
  classical
  have walks : ∃ total, Walk edges source target total := ⟨weight, walk⟩
  refine ⟨Nat.find walks, ⟨Nat.find_spec walks, fun total isWalk => Nat.find_min' walks isWalk⟩, ?_⟩
  exact Nat.find_min' walks walk

theorem distance_self (edges : Edges Node) (node : Node) : Distance edges node node 0 :=
  ⟨.nil node, fun total _ => Nat.zero_le total⟩

/-- A walk of the given weight whose first hop is known. -/
def StartsVia (edges : Edges Node) (source hop target : Node) (weight : Nat) : Prop :=
  ∃ cost rest, (hop, cost) ∈ edges source ∧ Walk edges hop target rest ∧ weight = cost + rest

theorem StartsVia.walk
    (via : StartsVia edges source hop target weight) : Walk edges source target weight := by
  obtain ⟨cost, rest, edge, tail, rfl⟩ := via
  exact .cons edge tail

theorem StartsVia.snoc
    (via : StartsVia edges source hop last weight) (edge : (target, cost) ∈ edges last) :
    StartsVia edges source hop target (weight + cost) := by
  obtain ⟨first, rest, leaves, tail, rfl⟩ := via
  exact ⟨first, rest + cost, leaves, tail.snoc edge, by omega⟩

/-! ## Paths by their edges -/

/-- A path, given by the edges it takes. -/
inductive Path (edges : Edges Node) : Node → Node → List (Node × Nat) → Prop
  | nil (node : Node) : Path edges node node []
  | cons {source next target : Node} {cost : Nat} {steps : List (Node × Nat)}
      (edge : (next, cost) ∈ edges source) (tail : Path edges next target steps) :
      Path edges source target ((next, cost) :: steps)

/-- The total weight of some edges. -/
def totalWeight (steps : List (Node × Nat)) : Nat := (steps.map (·.2)).sum

@[simp] theorem totalWeight_nil : totalWeight ([] : List (Node × Nat)) = 0 := rfl

@[simp] theorem totalWeight_cons (step : Node × Nat) (steps : List (Node × Nat)) :
    totalWeight (step :: steps) = step.2 + totalWeight steps := by
  simp [totalWeight]

@[simp] theorem totalWeight_append (first second : List (Node × Nat)) :
    totalWeight (first ++ second) = totalWeight first + totalWeight second := by
  simp [totalWeight]

theorem Path.walk
    (path : Path edges source target steps) : Walk edges source target (totalWeight steps) := by
  induction path with
  | nil node => exact .nil node
  | cons edge _ ih =>
    exact .cons edge ih

theorem Walk.path (walk : Walk edges source target weight) :
    ∃ steps, Path edges source target steps ∧ totalWeight steps = weight := by
  induction walk with
  | nil node => exact ⟨[], .nil node, rfl⟩
  | cons edge _ ih =>
    obtain ⟨steps, path, rfl⟩ := ih
    exact ⟨_, .cons edge path, totalWeight_cons _ _⟩

theorem Path.snoc (path : Path edges source last steps) (edge : (target, cost) ∈ edges last) :
    Path edges source target (steps ++ [(target, cost)]) := by
  induction path with
  | nil node => exact .cons edge (.nil target)
  | cons first _ ih => exact .cons first (ih edge)

/-- The nodes a path leaves, in order. -/
def leaves (source : Node) : List (Node × Nat) → List Node
  | [] => []
  | step :: steps => source :: leaves step.1 steps

@[simp] theorem length_leaves (source : Node) (steps : List (Node × Nat)) :
    (leaves source steps).length = steps.length := by
  induction steps generalizing source with
  | nil => rfl
  | cons step steps ih => rw [leaves, List.length_cons, ih, List.length_cons]

theorem Path.leaves_snoc (path : Path edges source last steps) (step : Node × Nat) :
    leaves source (steps ++ [step]) = leaves source steps ++ [last] := by
  induction path with
  | nil node => rfl
  | cons _ _ ih => rw [List.cons_append, leaves, ih, leaves, List.cons_append]

theorem totalWeight_le {bound : Nat}
    (bounded : ∀ step ∈ steps, step.2 ≤ bound) : totalWeight steps ≤ steps.length * bound := by
  induction steps with
  | nil => exact Nat.zero_le _
  | cons step steps ih =>
    have first := bounded step List.mem_cons_self
    have rest := ih fun other member => bounded other (List.mem_cons_of_mem _ member)
    rw [totalWeight_cons, List.length_cons, Nat.succ_mul]
    omega

/-- A path of the given weight and number of edges whose first edge goes to the hop. -/
def PathVia (edges : Edges Node) (source hop target : Node) (weight length : Nat) : Prop :=
  ∃ steps, Path edges source target steps ∧ totalWeight steps = weight ∧ steps.length = length ∧
    steps.head?.map (·.1) = some hop

theorem PathVia.snoc {length : Nat}
    (via : PathVia edges source hop last weight length) (edge : (target, cost) ∈ edges last) :
    PathVia edges source hop target (weight + cost) (length + 1) := by
  obtain ⟨steps, path, rfl, rfl, first⟩ := via
  refine ⟨_, path.snoc edge, by simp, by simp, ?_⟩
  cases steps with
  | nil => cases first
  | cons step steps => exact first

section Forwarding

variable {view : Node → Edges Node} {hop : Node → Option Node} {target : Node}

section

variable (positive : ∀ viewer node next cost, (next, cost) ∈ view viewer node → 0 < cost)
    (shared : ∀ viewer other node, node ≠ viewer → view viewer node ⊆ view other node)
include positive shared

/-- The next hop is nearer to the target, as it sees the graph. -/
theorem hop_descends
    {source next : Node} {far : Nat} (isFar : Distance (view source) source target far)
    (via : StartsVia (view source) source next target far) :
    ∃ near, near < far ∧ Distance (view next) next target near := by
  obtain ⟨cost, rest, edge, tail, rfl⟩ := via
  have heavy := positive _ _ _ _ edge
  rcases tail.within (shared source next) with stays | ⟨shorter, bound, returns⟩
  · obtain ⟨near, isNear, most⟩ := stays.distance
    exact ⟨near, by omega, isNear⟩
  · -- a tail that came back to the source would be a lighter walk from there
    have := isFar.2 returns
    omega

/-- Forwarding along shortest walks reaches the target and passes no node twice. -/
theorem forwarding_reaches
    (shortest : ∀ source next, source ≠ target → hop source = some next →
      ∃ far, Distance (view source) source target far ∧
        StartsVia (view source) source next target far)
    (complete : ∀ source weight, source ≠ target → Walk (view source) source target weight →
      ∃ next, hop source = some next)
    {source : Node} {far : Nat} (isFar : Distance (view source) source target far) :
    ∃ path, (source :: path).IsChain (fun node next => hop node = some next) ∧
      (source :: path).getLast? = some target ∧ (source :: path).Nodup ∧
      ∀ node ∈ path, ∃ near, near < far ∧ Distance (view node) node target near := by
  induction far using Nat.strong_induction_on generalizing source with
  | _ far ih =>
    by_cases arrived : source = target
    · subst arrived
      exact ⟨[], by simp, rfl, by simp, by simp⟩
    obtain ⟨next, hops⟩ := complete source far arrived isFar.1
    obtain ⟨same, isSame, via⟩ := shortest source next arrived hops
    have equal : same = far := isSame.unique isFar
    subst equal
    obtain ⟨near, nearer, isNear⟩ := hop_descends positive shared isFar via
    obtain ⟨path, chain, ends, nodup, descends⟩ := ih near nearer isNear
    have below : ∀ node ∈ next :: path, ∃ near, near < same ∧
        Distance (view node) node target near := by
      intro node member
      rcases List.mem_cons.mp member with rfl | later
      · exact ⟨near, nearer, isNear⟩
      · obtain ⟨nearest, smaller, isNearest⟩ := descends node later
        exact ⟨nearest, by omega, isNearest⟩
    refine ⟨next :: path, ?_, ?_, ?_, below⟩
    · exact List.isChain_cons_cons.mpr ⟨hops, chain⟩
    · exact ends
    · refine List.nodup_cons.mpr ⟨fun again => ?_, nodup⟩
      obtain ⟨nearest, smaller, isNearest⟩ := below source again
      have := isNearest.unique isFar
      omega

end

end Forwarding

end EasyTier.Graph
