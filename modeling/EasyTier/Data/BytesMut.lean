import EasyTier.Data.BitBuffer

/-! # A growing buffer with its capacity

A buffer holds bytes and has room up to its capacity. Splitting bytes off the front takes their
room away; reserving room may give more than was asked for.
-/

namespace EasyTier.Data

structure BytesMut where
  bytes : Bytes
  capacity : Nat
  within : bytes.length ≤ capacity

namespace BytesMut

variable (buf : BytesMut)

def withCapacity (capacity : Nat) : BytesMut := ⟨[], capacity, Nat.zero_le _⟩

def len : Nat := buf.bytes.length

/-- The room that is left. -/
def free : Nat := buf.capacity - buf.len

/-- Take bytes off the front, and their room with them. -/
def splitTo (count : Nat) : Bytes × BytesMut :=
  (buf.bytes.take count,
    { bytes := buf.bytes.drop count
      capacity := buf.capacity - count
      within := by
        have := buf.within
        rw [List.length_drop]
        omega })

/-- Make room for more bytes; the allocator may leave some to spare. -/
def reserve (additional spare : Nat) : BytesMut :=
  if additional ≤ buf.free then buf
  else ⟨buf.bytes, buf.len + additional + spare, by unfold len; omega⟩

/-- Append what there is room for. -/
def fill (chunk : Bytes) : BytesMut where
  bytes := buf.bytes ++ chunk.take buf.free
  capacity := buf.capacity
  within := by
    have := buf.within
    rw [List.length_append, List.length_take, free, len]
    omega

@[simp] theorem reserve_bytes (additional spare : Nat) :
    (buf.reserve additional spare).bytes = buf.bytes := by
  unfold reserve
  split <;> rfl

theorem le_free_reserve (additional spare : Nat) :
    additional ≤ (buf.reserve additional spare).free := by
  unfold reserve
  split
  case isTrue enough => exact enough
  case isFalse =>
    unfold free len
    dsimp only
    omega

end BytesMut

end EasyTier.Data
