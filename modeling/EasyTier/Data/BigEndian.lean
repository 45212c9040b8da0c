import EasyTier.Data.BitBuffer

/-! # Big-endian and little-endian numbers of a fixed width -/

namespace EasyTier.Data.BigEndian

/-- The low `width` bytes of a number, most significant first. -/
def encode : Nat → Nat → Bytes
  | 0, _ => []
  | width + 1, value => BitVec.ofNat 8 (value / 256 ^ width) :: encode width value

/-- The number a sequence of bytes stands for. -/
def decode : Bytes → Nat
  | [] => 0
  | byte :: rest => byte.toNat * 256 ^ rest.length + decode rest

/-- The number in `width` bytes from an offset on. -/
def read (bytes : Bytes) (offset width : Nat) : Nat := decode ((bytes.drop offset).take width)

@[simp] theorem length_encode (width value : Nat) : (encode width value).length = width := by
  induction width with
  | zero => rfl
  | succ width ih => simp [encode, ih]

theorem decode_encode_mod (width value : Nat) :
    decode (encode width value) = value % 256 ^ width := by
  induction width with
  | zero => simp [encode, decode, Nat.mod_one]
  | succ width ih =>
    have split : value % 256 ^ (width + 1) =
        value % 256 ^ width + 256 ^ width * (value / 256 ^ width % 256) := by
      rw [Nat.pow_succ, Nat.mod_mul]
    rw [encode, decode, ih, length_encode, BitVec.toNat_ofNat, split, Nat.mul_comm (256 ^ width),
      Nat.add_comm]

/-- A number that fits its width is read back as written. -/
theorem decode_encode {width value : Nat} (fits : value < 256 ^ width) :
    decode (encode width value) = value := by
  rw [decode_encode_mod, Nat.mod_eq_of_lt fits]

theorem decode_lt (bytes : Bytes) : decode bytes < 256 ^ bytes.length := by
  induction bytes with
  | nil => simp [decode]
  | cons byte rest ih =>
    have bounded : byte.toNat + 1 ≤ 256 := byte.isLt
    calc decode (byte :: rest)
        < byte.toNat * 256 ^ rest.length + 256 ^ rest.length := by
          exact Nat.add_lt_add_left ih _
      _ = (byte.toNat + 1) * 256 ^ rest.length := by rw [Nat.add_mul, Nat.one_mul]
      _ ≤ 256 * 256 ^ rest.length := Nat.mul_le_mul_right _ bounded
      _ = 256 ^ (byte :: rest).length := by rw [List.length_cons, Nat.pow_succ, Nat.mul_comm]

theorem read_lt (bytes : Bytes) (offset width : Nat) : read bytes offset width < 256 ^ width := by
  refine Nat.lt_of_lt_of_le (decode_lt _) (Nat.pow_le_pow_right (by decide) ?_)
  exact List.length_take_le _ _

/-- Write a number to `width` bytes from an offset on. -/
def write (bytes : Bytes) (offset width value : Nat) : Bytes :=
  bytes.take offset ++ encode width value ++ bytes.drop (offset + width)

section Write

variable {bytes : Bytes} {offset width : Nat} (inside : offset + width ≤ bytes.length) (value : Nat)

include inside

theorem length_write : (write bytes offset width value).length = bytes.length := by
  simp only [write, List.length_append, List.length_take, length_encode, List.length_drop]
  omega

theorem take_write {count : Nat} (before : count ≤ offset) :
    (write bytes offset width value).take count = bytes.take count := by
  rw [write, List.append_assoc, List.take_append_of_le_length, List.take_take,
    Nat.min_eq_left before]
  rw [List.length_take]
  omega

theorem drop_write {count : Nat} (behind : offset + width ≤ count) :
    (write bytes offset width value).drop count = bytes.drop count := by
  have length : (bytes.take offset ++ encode width value).length = offset + width := by
    rw [List.length_append, List.length_take, length_encode]
    omega
  obtain ⟨rest, rfl⟩ := Nat.exists_eq_add_of_le behind
  rw [write, ← List.drop_drop, ← length, List.drop_left, length, List.drop_drop]

end Write

/-- A number depends on the bytes up to its end only. -/
theorem read_eq_of_take_eq {first second : Bytes} {count : Nat}
    (same : first.take count = second.take count) {offset width : Nat}
    (before : offset + width ≤ count) :
    read first offset width = read second offset width := by
  have cut : ∀ bytes : Bytes, (bytes.drop offset).take width =
      ((bytes.take count).take (offset + width)).drop offset := by
    intro bytes
    rw [List.take_take, Nat.min_eq_left before, List.drop_take, Nat.add_sub_cancel_left]
  rw [read, read, cut first, cut second, same]

end EasyTier.Data.BigEndian

namespace EasyTier.Data.LittleEndian

/-- The low `width` bytes of a number, least significant first. -/
def encode (width value : Nat) : Bytes := (BigEndian.encode width value).reverse

/-- The number a sequence of bytes stands for. -/
def decode (bytes : Bytes) : Nat := BigEndian.decode bytes.reverse

@[simp] theorem length_encode (width value : Nat) : (encode width value).length = width := by
  simp [encode]

theorem decode_encode {width value : Nat} (fits : value < 256 ^ width) :
    decode (encode width value) = value := by
  rw [decode, encode, List.reverse_reverse, BigEndian.decode_encode fits]

/-- The number of `width` bytes at an offset. -/
def read (bytes : Bytes) (offset width : Nat) : Nat := decode ((bytes.drop offset).take width)

/-- Reading back a number that stands behind other bytes. -/
theorem read_append_encode (before after : Bytes) {offset width value : Nat}
    (starts : offset = before.length) (fits : value < 256 ^ width) :
    read (before ++ encode width value ++ after) offset width = value := by
  subst starts
  rw [read, List.append_assoc, List.drop_left, List.take_left' (length_encode width value),
    decode_encode fits]

end EasyTier.Data.LittleEndian
