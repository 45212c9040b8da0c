import Mathlib.Algebra.Ring.Nat
import Mathlib.Data.List.Basic
import Mathlib.Data.List.Range

/-! # Pieces of a sequence

Pieces are given by where they start and how long they are. They tile a stretch of a sequence if
each starts where the one before ended; put together they are that stretch again.
-/

namespace EasyTier.Data

universe u

variable {Item : Type u} {piece : Nat × Nat}

/-- The items of one piece. -/
def slice (items : List Item) (piece : Nat × Nat) : List Item := (items.drop piece.1).take piece.2

/-- The pieces lead from one place to another without gaps or overlaps. -/
inductive Tiles : Nat → List (Nat × Nat) → Nat → Prop
  | nil {place : Nat} : Tiles place [] place
  | cons {start length stop : Nat} {pieces : List (Nat × Nat)}
      (after : Tiles (start + length) pieces stop) : Tiles start ((start, length) :: pieces) stop

namespace Tiles

variable {start stop : Nat} {pieces : List (Nat × Nat)}

section

variable (tiles : Tiles start pieces stop)
include tiles

theorem le : start ≤ stop := by
  induction tiles with
  | nil => exact Nat.le_refl _
  | cons _ ih => omega

theorem bounds (member : piece ∈ pieces) : start ≤ piece.1 ∧ piece.1 + piece.2 ≤ stop := by
  induction tiles with
  | nil => exact absurd member List.not_mem_nil
  | @cons start length stop pieces after ih =>
    rcases List.mem_cons.mp member with rfl | later
    · exact ⟨Nat.le_refl _, after.le⟩
    · have := ih later
      exact ⟨by omega, this.2⟩

/-- Tiles put together are the stretch they cover. -/
theorem flatMap_slice {items : List Item} :
    pieces.flatMap (slice items) = (items.drop start).take (stop - start) := by
  induction tiles with
  | nil => simp
  | @cons start length stop pieces after ih =>
    have bound := after.le
    have split : stop - start = length + (stop - (start + length)) := by omega
    rw [List.flatMap_cons, ih, split, List.take_add, List.drop_drop]
    rfl

/-- Every tile ends before the next one starts. -/
theorem pairwise : pieces.Pairwise (fun first second => first.1 + first.2 ≤ second.1) := by
  induction tiles with
  | nil => exact .nil
  | @cons start length stop pieces after ih =>
    refine .cons (fun piece member => ?_) ih
    exact (after.bounds member).1

/-- Two tiles are the same, or one ends before the other starts. -/
theorem eq_or_apart
    {first second : Nat × Nat} (firstIn : first ∈ pieces) (secondIn : second ∈ pieces) :
    first = second ∨ first.1 + first.2 ≤ second.1 ∨ second.1 + second.2 ≤ first.1 := by
  induction tiles with
  | nil => exact absurd firstIn List.not_mem_nil
  | cons after ih =>
    rcases List.mem_cons.mp firstIn with rfl | firstLater <;>
      rcases List.mem_cons.mp secondIn with rfl | secondLater
    · exact .inl rfl
    · exact .inr (.inl (after.bounds secondLater).1)
    · exact .inr (.inr (after.bounds firstLater).1)
    · exact ih firstLater secondLater

/-- Tiles that lead somewhere have a last one. -/
theorem exists_last (leads : start < stop) : ∃ piece ∈ pieces, piece.1 + piece.2 = stop := by
  induction tiles with
  | nil => exact absurd leads (Nat.lt_irrefl _)
  | @cons start length stop pieces after ih =>
    rcases Nat.lt_or_ge (start + length) stop with further | reached
    · obtain ⟨piece, member, ends⟩ := ih further
      exact ⟨piece, List.mem_cons_of_mem _ member, ends⟩
    · exact ⟨(start, length), List.mem_cons_self, Nat.le_antisymm after.le reached⟩

end

end Tiles

/-! ## Cutting into pieces of one size -/

/-- Pieces of `size` from a place on, the last one as short as it has to be. -/
def chunks (size stop start : Nat) : List (Nat × Nat) :=
  if _more : 0 < size ∧ start < stop then
    (start, min (start + size) stop - start) :: chunks size stop (min (start + size) stop)
  else []
termination_by stop - start

variable {size stop start : Nat}

theorem chunks_of_ge (done : stop ≤ start) : chunks size stop start = [] := by
  rw [chunks, dif_neg fun more => Nat.not_lt.mpr done more.2]

theorem tiles_chunks (positive : 0 < size) (within : start ≤ stop) :
    Tiles start (chunks size stop start) stop := by
  fun_induction chunks size stop start with
  | case1 start more ih =>
    refine .cons ?_
    rw [show start + (min (start + size) stop - start) = min (start + size) stop by omega]
    exact ih (Nat.min_le_right _ _)
  | case2 start done =>
    obtain rfl : start = stop := by omega
    exact .nil

/-- Every piece has the full size, or as much as is left. -/
theorem bounds_of_mem_chunks (member : piece ∈ chunks size stop start) :
    0 < piece.2 ∧ piece.1 + piece.2 = min (piece.1 + size) stop := by
  fun_induction chunks size stop start with
  | case1 start more ih =>
    rcases List.mem_cons.mp member with rfl | later
    · omega
    · exact ih later
  | case2 start done => exact absurd member List.not_mem_nil

/-- All pieces start a whole number of sizes after the first one. -/
theorem dvd_of_mem_chunks
    (member : piece ∈ chunks size stop start) (aligned : size ∣ start) : size ∣ piece.1 := by
  fun_induction chunks size stop start with
  | case1 start more ih =>
    rcases List.mem_cons.mp member with rfl | later
    · exact aligned
    · rcases Nat.le_total (start + size) stop with whole | short
      · rw [Nat.min_eq_left whole] at ih later
        exact ih later (Nat.dvd_add aligned (Nat.dvd_refl size))
      · rw [Nat.min_eq_right short, chunks_of_ge (Nat.le_refl stop)] at later
        exact absurd later List.not_mem_nil
  | case2 start done => exact absurd member List.not_mem_nil

/-! ## Slots filled in any order -/

/-- A list is tabulated by its items. -/
theorem map_getD_range (items : List Item) (filler : Item) :
    (List.range items.length).map (fun index => items.getD index filler) = items := by
  refine List.ext_getElem (by simp) ?_
  intro index _ inside
  simp [List.getElem?_eq_getElem inside]

/-- Writing one slot of a tabulated list. -/
theorem set_map_range (count : Nat) (value : Nat → Item) (index : Nat) (item : Item) :
    ((List.range count).map value).set index item =
      (List.range count).map (Function.update value index item) := by
  refine List.ext_getElem (by simp) ?_
  intro place _ _
  by_cases same : index = place
  · subst same
    simp
  · simp [List.getElem_set_ne same, Function.update_of_ne (Ne.symm same)]

end EasyTier.Data
