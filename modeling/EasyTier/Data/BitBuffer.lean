import Mathlib.Algebra.Ring.Nat
import Mathlib.Data.List.Basic
import Mathlib.Tactic.Common

/-! # Bits in a buffer of bytes

A buffer numbers its bits from the least significant bit of its first byte. Writing a bit and
shifting the whole buffer in place, first by bytes and then by the remaining bits with a carry,
are given as the loops a program runs; the lemmas say what they do to every bit.
-/

namespace EasyTier.Data

abbrev Byte := BitVec 8

abbrev Bytes := List Byte

namespace BitBuffer

/-- The byte at an index; outside the buffer it reads as zero. -/
def byteAt (bytes : Bytes) (index : Nat) : Byte := bytes[index]?.getD 0

/-- The bit at an index of the buffer. -/
def bitAt (bytes : Bytes) (index : Nat) : Bool := (byteAt bytes (index / 8)).getLsbD (index % 8)

/-- Set one bit of the byte that holds it. -/
def setBit (bytes : Bytes) (index : Nat) : Bytes :=
  bytes.set (index / 8) (byteAt bytes (index / 8) ||| 1#8 <<< (index % 8))

/-- Move every byte `count` places up, from the last byte to the first, filling with zero. -/
def shiftBytes (count : Nat) (bytes : Bytes) : Bytes :=
  (List.range bytes.length).reverse.foldl
    (fun shifted index =>
      shifted.set index (if count ≤ index then byteAt shifted (index - count) else 0)) bytes

/-- One byte of the carry loop of `shiftBits`. -/
def carryStep (count : Nat) (state : Bytes × Byte) (index : Nat) : Bytes × Byte :=
  let byte := byteAt state.1 index
  (state.1.set index (byte <<< count ||| state.2), byte >>> (8 - count))

/-- Move every bit fewer than eight places up, carrying from each byte into the next. -/
def shiftBits (count : Nat) (bytes : Bytes) : Bytes :=
  ((List.range bytes.length).foldl (carryStep count) (bytes, 0)).1

theorem byteAt_set (bytes : Bytes) (index : Nat) (byte : Byte) (other : Nat)
    (inside : index < bytes.length) :
    byteAt (bytes.set index byte) other = if other = index then byte else byteAt bytes other := by
  unfold byteAt
  by_cases same : other = index
  · subst same
    simp [inside]
  · simp [List.getElem?_set_ne (Ne.symm same), same]

@[simp] theorem byteAt_replicate_zero (count index : Nat) :
    byteAt (List.replicate count 0#8) index = 0#8 := by
  unfold byteAt
  by_cases inside : index < count
  · simp [inside]
  · simp [inside]

@[simp] theorem bitAt_replicate_zero (count index : Nat) :
    bitAt (List.replicate count 0#8) index = false := by
  simp [bitAt]

@[simp] theorem length_setBit (bytes : Bytes) (index : Nat) :
    (setBit bytes index).length = bytes.length := by
  simp [setBit]

variable {bytes : Bytes} {index count : Nat}

theorem bitAt_setBit (inside : index < 8 * bytes.length) (other : Nat) :
    bitAt (setBit bytes index) other = (bitAt bytes other || decide (other = index)) := by
  have holds : index / 8 < bytes.length := by omega
  unfold bitAt setBit
  rw [byteAt_set _ _ _ _ holds]
  by_cases sameByte : other / 8 = index / 8
  · have sameBit : other % 8 = index % 8 ↔ other = index := by omega
    rw [if_pos sameByte, sameByte, BitVec.getLsbD_or]
    by_cases same : other % 8 = index % 8
    · simp [sameBit.mp same, Nat.mod_lt]
    have apart : other ≠ index := fun equal => same (by rw [equal])
    have outside : ¬ (1#8).getLsbD (other % 8 - index % 8) ∨ other % 8 < index % 8 := by
      by_cases below : other % 8 < index % 8
      · exact Or.inr below
      · have positive : other % 8 - index % 8 ≠ 0 := by omega
        simp [positive]
    simp only [BitVec.getLsbD_shiftLeft, apart, decide_false]
    rcases outside with zero | below
    · simp [zero]
    · simp [below]
  · have apart : other ≠ index := fun equal => sameByte (by rw [equal])
    simp [sameByte, apart]

/-- What the byte loop leaves at an index. -/
private theorem byteAt_shiftBytes_loop (positive : 0 < count) (original : Bytes) :
    ∀ (remaining : Nat) (current : Bytes), remaining ≤ original.length →
      current.length = original.length →
      (∀ index, index < remaining → byteAt current index = byteAt original index) →
      (∀ index, remaining ≤ index → index < original.length →
        byteAt current index = if count ≤ index then byteAt original (index - count) else 0) →
      ∀ index, index < original.length →
        byteAt ((List.range remaining).reverse.foldl
          (fun shifted index =>
            shifted.set index (if count ≤ index then byteAt shifted (index - count) else 0))
          current) index = if count ≤ index then byteAt original (index - count) else 0 := by
  intro remaining
  -- the bytes from `remaining` on are done, those below are still the original ones
  induction remaining with
  | zero =>
    intro current _ _ _ done index inside
    simpa using done index (Nat.zero_le _) inside
  | succ remaining ih =>
    intro current bounded sameLength untouched done index inside
    have here : remaining < current.length := by omega
    rw [List.range_succ, List.reverse_append]
    apply ih _ (by omega) (by simpa using sameLength)
    · intro other below
      rw [byteAt_set _ _ _ _ here, if_neg (by omega)]
      exact untouched other (by omega)
    · intro other above otherInside
      rw [byteAt_set _ _ _ _ here]
      by_cases same : other = remaining
      · subst same
        rw [if_pos rfl]
        by_cases enough : count ≤ other
        · rw [if_pos enough, if_pos enough, untouched _ (by omega)]
        · rw [if_neg enough, if_neg enough]
      · rw [if_neg same]
        exact done other (by omega) otherInside
    · exact inside

theorem length_foldl_set {step : Bytes → Nat → Byte} (indices : List Nat) (bytes : Bytes) :
    (indices.foldl (fun current index => current.set index (step current index)) bytes).length =
      bytes.length := by
  induction indices generalizing bytes with
  | nil => rfl
  | cons index indices ih => simp [ih]

@[simp] theorem length_shiftBytes (count : Nat) (bytes : Bytes) :
    (shiftBytes count bytes).length = bytes.length :=
  length_foldl_set _ _

theorem byteAt_shiftBytes (positive : 0 < count) (inside : index < bytes.length) :
    byteAt (shiftBytes count bytes) index =
      if count ≤ index then byteAt bytes (index - count) else 0 := by
  apply byteAt_shiftBytes_loop positive bytes bytes.length bytes (Nat.le_refl _) rfl
  · intro _ _
    rfl
  · intro other above below
    omega
  · exact inside

theorem bitAt_shiftBytes (positive : 0 < count) (inside : index < 8 * bytes.length) :
    bitAt (shiftBytes count bytes) index =
      (decide (8 * count ≤ index) && bitAt bytes (index - 8 * count)) := by
  unfold bitAt
  rw [byteAt_shiftBytes positive (by omega)]
  by_cases enough : 8 * count ≤ index
  · have quotient : (index - 8 * count) / 8 = index / 8 - count := by omega
    have remainder : (index - 8 * count) % 8 = index % 8 := by omega
    rw [if_pos (by omega), quotient, remainder]
    simp [enough]
  · rw [if_neg (by omega)]
    simp [enough]

/-- The carry that reaches a byte of the original buffer. -/
private def carryInto (count : Nat) (original : Bytes) (index : Nat) : Byte :=
  if index = 0 then 0 else byteAt original (index - 1) >>> (8 - count)

/-- After `done` bytes the loop has rewritten exactly those and holds the carry out of them. -/
private theorem carryStep_loop (count : Nat) (original : Bytes) :
    ∀ (done : Nat), done ≤ original.length →
      ∃ current, (List.range done).foldl (carryStep count) (original, 0) =
          (current, carryInto count original done) ∧
        current.length = original.length ∧
        (∀ index, index < done → byteAt current index =
          byteAt original index <<< count ||| carryInto count original index) ∧
        (∀ index, done ≤ index → byteAt current index = byteAt original index) := by
  intro done
  induction done with
  | zero =>
    intro _
    refine ⟨original, rfl, rfl, ?_, fun _ _ => rfl⟩
    omega
  | succ done ih =>
    intro bounded
    obtain ⟨current, state, sameLength, rewritten, untouched⟩ := ih (by omega)
    have here : done < current.length := by omega
    refine ⟨current.set done (byteAt original done <<< count ||| carryInto count original done),
      ?_, by simpa using sameLength, ?_, ?_⟩
    · rw [List.range_succ, List.foldl_append, state]
      simp [carryStep, carryInto, untouched done (Nat.le_refl _)]
    · intro index below
      rw [byteAt_set _ _ _ _ here]
      by_cases same : index = done
      · rw [if_pos same, same]
      · rw [if_neg same]
        exact rewritten index (by omega)
    · intro index above
      rw [byteAt_set _ _ _ _ here, if_neg (by omega)]
      exact untouched index (by omega)

@[simp] theorem length_shiftBits (count : Nat) (bytes : Bytes) :
    (shiftBits count bytes).length = bytes.length := by
  obtain ⟨current, state, sameLength, _⟩ := carryStep_loop count bytes bytes.length (Nat.le_refl _)
  rw [shiftBits, state]
  exact sameLength

theorem byteAt_shiftBits (count : Nat) (inside : index < bytes.length) :
    byteAt (shiftBits count bytes) index =
      byteAt bytes index <<< count ||| carryInto count bytes index := by
  obtain ⟨current, state, _, rewritten, _⟩ :=
    carryStep_loop count bytes bytes.length (Nat.le_refl _)
  rw [shiftBits, state]
  exact rewritten index inside

theorem bitAt_shiftBits (positive : 0 < count) (small : count < 8)
    (inside : index < 8 * bytes.length) :
    bitAt (shiftBits count bytes) index =
      (decide (count ≤ index) && bitAt bytes (index - count)) := by
  have bitInside : index % 8 < 8 := Nat.mod_lt _ (by decide)
  unfold bitAt
  rw [byteAt_shiftBits count (by omega), BitVec.getLsbD_or, BitVec.getLsbD_shiftLeft]
  by_cases sameByte : count ≤ index % 8
  · -- the bit comes from the same byte; the carry only fills the low `count` bits
    have quotient : (index - count) / 8 = index / 8 := by omega
    have remainder : (index - count) % 8 = index % 8 - count := by omega
    have noCarry : (carryInto count bytes (index / 8)).getLsbD (index % 8) = false := by
      unfold carryInto
      split
      · simp
      · rw [BitVec.getLsbD_ushiftRight]
        exact BitVec.getLsbD_of_ge _ _ (by omega)
    have enough : count ≤ index := by omega
    rw [noCarry, quotient, remainder]
    simp [enough, bitInside, Nat.not_lt.mpr sameByte]
  · have below : index % 8 < count := by omega
    by_cases first : index / 8 = 0
    · have tooLow : ¬ count ≤ index := by omega
      simp [carryInto, first, below, tooLow]
    · have quotient : (index - count) / 8 = index / 8 - 1 := by omega
      have remainder : (index - count) % 8 = 8 - count + index % 8 := by omega
      have enough : count ≤ index := by omega
      simp [carryInto, first, below, enough, quotient, remainder]

end BitBuffer

end EasyTier.Data
