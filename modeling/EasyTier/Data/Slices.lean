import EasyTier.Data.BitBuffer

/-! # Checked slices

Indexing a buffer with a range and copying into a range of it, as a program does it: a range outside
the buffer and a copy between ranges of different length have no result.
-/

namespace EasyTier.Data

universe u

variable {Item : Type u}

/-- The items from `start` to before `stop`. -/
def range? (items : List Item) (start stop : Nat) : Option (List Item) :=
  if start ≤ stop ∧ stop ≤ items.length then some ((items.drop start).take (stop - start)) else none

/-- The items from `start` on. -/
def rangeFrom? (items : List Item) (start : Nat) : Option (List Item) :=
  if start ≤ items.length then some (items.drop start) else none

/-- Overwrite the items from `start` to before `stop`. -/
def copyInto? (items : List Item) (start stop : Nat) (source : List Item) : Option (List Item) :=
  if start ≤ stop ∧ stop ≤ items.length ∧ source.length = stop - start then
    some (items.take start ++ source ++ items.drop stop)
  else none

variable {start stop : Nat}

theorem range?_isSome_iff {items : List Item} :
    (range? items start stop).isSome = true ↔ start ≤ stop ∧ stop ≤ items.length := by
  unfold range?
  split <;> simp_all

theorem rangeFrom?_isSome_iff {items : List Item} :
    (rangeFrom? items start).isSome = true ↔ start ≤ items.length := by
  unfold rangeFrom?
  split <;> simp_all

theorem range?_append (before middle after : List Item)
    (starts : start = before.length) (stops : stop = before.length + middle.length) :
    range? (before ++ middle ++ after) start stop = some middle := by
  subst starts stops
  rw [range?, if_pos (by simp), List.append_assoc, List.drop_left, Nat.add_sub_cancel_left,
    List.take_left]

theorem rangeFrom?_append (before after : List Item)
    (starts : start = before.length) : rangeFrom? (before ++ after) start = some after := by
  subst starts
  rw [rangeFrom?, if_pos (by simp), List.drop_left]

theorem copyInto?_append (before old after source : List Item)
    (starts : start = before.length) (stops : stop = before.length + old.length)
    (fits : source.length = old.length) :
    copyInto? (before ++ old ++ after) start stop source = some (before ++ source ++ after) := by
  subst starts stops
  rw [copyInto?, if_pos ⟨by omega, by simp, by omega⟩]
  rw [show (before ++ old ++ after).take before.length = before by simp,
    ← List.length_append, List.drop_left]

end EasyTier.Data
