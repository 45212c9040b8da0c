import EasyTier.Data.BitBuffer
import Mathlib.Data.Set.Insert

/-! # The 256-packet replay window of one receive epoch

`ReplayWindow256` remembers the highest accepted sequence number and, in a 256-bit map, which
of the numbers just below it were accepted; bit `d` stands for `max_seq - d`. `Tracks` says
what a window is for: it decides exactly as one that stores the whole set of accepted numbers.
Sequence numbers are 64-bit and `usize` is taken to be 64 bits wide, so the casts lose nothing.
-/

namespace EasyTier.Tunnel

open Data BitBuffer

/-- `[u8; 32]`. -/
structure Bitmap where
  bytes : Bytes
  sized : bytes.length = 32
  deriving DecidableEq

open Bitmap

namespace Bitmap

variable (bitmap : Bitmap)

def zero : Bitmap := ⟨List.replicate 32 0#8, by simp⟩

instance : Inhabited Bitmap := ⟨zero⟩

/-- `test_bit`; every caller passes an index below 256. -/
def testBit (idx : Nat) : Bool :=
  (byteAt bitmap.bytes (idx / 8) >>> (idx % 8)) &&& 1#8 == 1#8

/-- `set_bit`; every caller passes an index below 256. -/
def setBit (idx : Nat) : Bitmap :=
  ⟨BitBuffer.setBit bitmap.bytes idx, by simp [bitmap.sized]⟩

/-- `shift_right`: whole bytes from the end of the map, then the remaining bits with a carry. -/
def shiftRight (shift : Nat) : Bitmap :=
  if shift = 0 then
    bitmap
  else if 256 ≤ shift then
    zero
  else
    let byteShift := shift / 8
    let bitShift := shift % 8
    let moved : Bitmap :=
      if 0 < byteShift then
        ⟨shiftBytes byteShift bitmap.bytes, by simp [bitmap.sized]⟩
      else bitmap
    if 0 < bitShift then
      ⟨shiftBits bitShift moved.bytes, by simp [moved.sized]⟩
    else moved

theorem testBit_eq_bitAt (idx : Nat) : bitmap.testBit idx = bitAt bitmap.bytes idx := by
  rw [testBit, BitVec.and_one_eq_setWidth_ofBool_getLsbD, BitVec.getLsbD_ushiftRight,
    Nat.add_zero, bitAt]
  cases (byteAt bitmap.bytes (idx / 8)).getLsbD (idx % 8) <;> rfl

@[simp] theorem testBit_zero (idx : Nat) : zero.testBit idx = false := by
  rw [testBit_eq_bitAt]
  exact bitAt_replicate_zero 32 idx

theorem testBit_setBit {bitmap : Bitmap} {idx : Nat} (inside : idx < 256) (other : Nat) :
    (bitmap.setBit idx).testBit other = (bitmap.testBit other || decide (other = idx)) := by
  rw [testBit_eq_bitAt, testBit_eq_bitAt]
  exact bitAt_setBit (by rw [bitmap.sized]; exact inside) other

/-- Shifting moves every bit up and fills with zeros; what leaves the map is gone. -/
theorem testBit_shiftRight (shift : Nat) {idx : Nat} (inside : idx < 256) :
    (bitmap.shiftRight shift).testBit idx =
      (decide (shift ≤ idx) && bitmap.testBit (idx - shift)) := by
  unfold shiftRight
  split
  · rename_i unshifted
    simp [unshifted]
  split
  · simp [show ¬ shift ≤ idx by omega]
  simp only [testBit_eq_bitAt]
  have byBytes : ∀ other, other < 256 →
      bitAt (if 0 < shift / 8 then
          (⟨shiftBytes (shift / 8) bitmap.bytes, by simp [bitmap.sized]⟩ : Bitmap)
        else bitmap).bytes other =
      (decide (8 * (shift / 8) ≤ other) &&
        bitAt bitmap.bytes (other - 8 * (shift / 8))) := by
    intro other otherInside
    split
    · rename_i positive
      exact bitAt_shiftBytes positive (by rw [bitmap.sized]; exact otherInside)
    · rename_i noBytes
      simp [Nat.eq_zero_of_not_pos noBytes]
  split
  · rename_i positive
    rw [bitAt_shiftBits positive (Nat.mod_lt _ (by decide))
      (by rw [sized]; exact inside), byBytes _ (by omega), ← Bool.and_assoc]
    congr 1
    · simp only [← Bool.decide_and, decide_eq_decide]
      omega
    · congr 1
      omega
  · rw [byBytes _ inside]
    congr 1
    · simp only [decide_eq_decide]
      omega
    · congr 1
      omega

end Bitmap

/-- The last 256 sequence numbers, and which of them came. -/
structure ReplayWindow256 where
  maxSeq : Nat
  bitmap : Bitmap
  valid : Bool
  deriving DecidableEq

namespace ReplayWindow256

/-- `ReplayWindow256::default()`, which is also what `clear` leaves. -/
def default : ReplayWindow256 := { maxSeq := 0, bitmap := zero, valid := false }

instance : Inhabited ReplayWindow256 := ⟨default⟩

/-- `accept`: the verdict and the window after it. -/
def accept (window : ReplayWindow256) (seq : Nat) : Bool × ReplayWindow256 :=
  if !window.valid then
    (true, { maxSeq := seq, bitmap := window.bitmap.setBit 0, valid := true })
  else if window.maxSeq < seq then
    (true, { window with
      bitmap := (window.bitmap.shiftRight (seq - window.maxSeq)).setBit 0, maxSeq := seq })
  else
    let delta := window.maxSeq - seq
    if 256 ≤ delta then
      (false, window)
    else if window.bitmap.testBit delta then
      (false, window)
    else
      (true, { window with bitmap := window.bitmap.setBit delta })

/-- `can_accept`: the verdict without the update. -/
def canAccept (window : ReplayWindow256) (seq : Nat) : Bool :=
  if !window.valid || window.maxSeq < seq then
    true
  else
    let delta := window.maxSeq - seq
    decide (delta < 256) && !window.bitmap.testBit delta

@[simp] theorem fst_accept (window : ReplayWindow256) (seq : Nat) :
    (window.accept seq).1 = window.canAccept seq := by
  cases valid : window.valid with
  | false => simp [accept, canAccept, valid]
  | true =>
    simp only [accept, canAccept, valid, Bool.not_true, Bool.false_or, Bool.false_eq_true,
      if_false, decide_eq_true_eq]
    split
    · rfl
    split
    · rename_i large
      simp [Nat.not_lt.mpr large]
    · rename_i recent
      have inside : window.maxSeq - seq < 256 := Nat.not_le.mp recent
      cases seen : window.bitmap.testBit (window.maxSeq - seq) <;> simp [inside]

variable {window : ReplayWindow256} {seq : Nat} {accepted : Set Nat}
  {state : ReplayWindow256 × List Nat}

/-- A refused number leaves the window as it was. -/
theorem snd_accept_of_refused
    (refused : (window.accept seq).1 = false) : (window.accept seq).2 = window := by
  unfold accept at refused ⊢
  dsimp only at refused ⊢
  split at refused
  · cases refused
  split at refused
  · cases refused
  split at refused
  · simp [*]
  split at refused
  · simp [*]
  · cases refused

/-- Offering a number leaves the window in use. -/
@[simp] theorem valid_snd_accept (window : ReplayWindow256) (seq : Nat) :
    (window.accept seq).2.valid = true := by
  cases valid : window.valid with
  | false => simp [accept, valid]
  | true =>
    simp only [accept, valid, Bool.not_true, Bool.false_eq_true, if_false]
    split
    · rfl
    · split
      · exact valid
      · split
        · exact valid
        · rfl

/-- A number an ideal window would accept: never accepted before, and fewer than 256 below
every number that was. -/
def Fresh (accepted : Set Nat) (seq : Nat) : Prop :=
  seq ∉ accepted ∧ ∀ other ∈ accepted, other < seq + 256

/-- The window stands for the whole set of accepted numbers. -/
structure Tracks (window : ReplayWindow256) (accepted : Set Nat) : Prop where
  unused : window.valid = false → accepted = ∅ ∧ window.bitmap = zero
  highest : window.valid = true →
    window.maxSeq ∈ accepted ∧ ∀ seq ∈ accepted, seq ≤ window.maxSeq
  recent : window.valid = true → ∀ delta, delta < 256 → delta ≤ window.maxSeq →
    (window.bitmap.testBit delta = true ↔ window.maxSeq - delta ∈ accepted)

theorem tracks_default : default.Tracks ∅ where
  unused _ := ⟨rfl, rfl⟩
  highest valid := by cases valid
  recent valid := by cases valid

section

variable (tracks : window.Tracks accepted)
include tracks

/-- A window decides as the ideal one does. -/
theorem Tracks.canAccept_iff (seq : Nat) :
    window.canAccept seq = true ↔ Fresh accepted seq := by
  cases valid : window.valid with
  | false =>
    obtain ⟨rfl, _⟩ := tracks.unused valid
    simp [canAccept, valid, Fresh]
  | true =>
    obtain ⟨highestMem, highest⟩ := tracks.highest valid
    by_cases above : window.maxSeq < seq
    · have fresh : Fresh accepted seq :=
        ⟨fun member => absurd (highest seq member) (Nat.not_le.mpr above),
          fun other member => by have := highest other member; omega⟩
      simp [canAccept, above, fresh]
    · have bit := tracks.recent valid (window.maxSeq - seq)
      have back : window.maxSeq - (window.maxSeq - seq) = seq := by omega
      rw [back] at bit
      simp only [canAccept, valid, Bool.not_true, Bool.false_or, decide_eq_true_eq, above,
        if_false, Bool.and_eq_true]
      constructor
      · rintro ⟨near, unseen⟩
        refine ⟨fun member => ?_, fun other member => ?_⟩
        · rw [(bit near (by omega)).mpr member] at unseen
          cases unseen
        · have := highest other member
          omega
      · rintro ⟨unseen, near⟩
        have := near window.maxSeq highestMem
        have inside : window.maxSeq - seq < 256 := by omega
        refine ⟨inside, ?_⟩
        cases seen : window.bitmap.testBit (window.maxSeq - seq) with
        | false => rfl
        | true => exact absurd ((bit inside (by omega)).mp seen) unseen

omit tracks in
/-- The first number opens the window. -/
private theorem tracks_first (seq : Nat) :
    Tracks { maxSeq := seq, bitmap := zero.setBit 0, valid := true } {seq} := by
  refine ⟨by simp, by simp, ?_⟩
  simp only [testBit_setBit (show 0 < 256 by decide), testBit_zero,
    Bool.false_or, decide_eq_true_eq, Set.mem_singleton_iff] at *
  omega

/-- A number above the highest one moves the window up. -/
private theorem Tracks.advance (valid : window.valid = true)
    (above : window.maxSeq < seq) :
    Tracks { window with
      bitmap := (window.bitmap.shiftRight (seq - window.maxSeq)).setBit 0, maxSeq := seq }
      (insert seq accepted) := by
  obtain ⟨_, highest⟩ := tracks.highest valid
  refine ⟨by simp [valid], fun _ => ⟨by simp, ?_⟩, ?_⟩
  · rintro other (rfl | member)
    · exact Nat.le_refl _
    · exact (highest other member).trans above.le
  · intro _ delta inside bounded
    simp only [testBit_setBit (show 0 < 256 by decide),
      testBit_shiftRight _ _ inside, Bool.or_eq_true, Bool.and_eq_true,
      decide_eq_true_eq, Set.mem_insert_iff] at *
    -- bit `delta` was bit `delta - shift`, and both stand for the number `seq - delta`
    by_cases moved : seq - window.maxSeq ≤ delta
    · have bit := tracks.recent valid (delta - (seq - window.maxSeq)) (by omega) (by omega)
      have same : window.maxSeq - (delta - (seq - window.maxSeq)) = seq - delta := by omega
      have notSelf : delta ≠ 0 := by omega
      have apart : seq - delta ≠ seq := by omega
      rw [bit, same]
      simp [moved, notSelf, apart]
    · have notOld : seq - delta ∉ accepted := by
        intro member
        have := highest _ member
        omega
      simp only [moved, false_and, false_or, notOld, or_false]
      omega

/-- A number inside the window is marked in place. -/
private theorem Tracks.mark (valid : window.valid = true)
    (below : seq ≤ window.maxSeq) (inside : window.maxSeq - seq < 256) :
    Tracks { window with bitmap := window.bitmap.setBit (window.maxSeq - seq) }
      (insert seq accepted) := by
  obtain ⟨highestMem, highest⟩ := tracks.highest valid
  refine ⟨by simp [valid], fun _ => ⟨Set.mem_insert_of_mem _ highestMem, ?_⟩, ?_⟩
  · rintro other (rfl | member)
    · exact below
    · exact highest other member
  · intro _ delta deltaInside bounded
    have same : delta = window.maxSeq - seq ↔ window.maxSeq - delta = seq := by
      simp only at bounded
      omega
    simp only [testBit_setBit inside, Bool.or_eq_true, decide_eq_true_eq, Set.mem_insert_iff]
    rw [tracks.recent valid delta deltaInside bounded, same, or_comm]

/-- An accepted number joins the set the window stands for. -/
theorem Tracks.accept (taken : (window.accept seq).1 = true) :
    (window.accept seq).2.Tracks (insert seq accepted) := by
  rw [fst_accept] at taken
  cases valid : window.valid with
  | false =>
    obtain ⟨rfl, zeroed⟩ := tracks.unused valid
    simpa [accept, valid, zeroed] using tracks_first seq
  | true =>
    by_cases above : window.maxSeq < seq
    · simpa [ReplayWindow256.accept, valid, above] using tracks.advance valid above
    · simp only [canAccept, valid, above, Bool.not_true, Bool.false_or, decide_eq_true_eq,
        if_false, Bool.and_eq_true, Bool.not_eq_true'] at taken
      obtain ⟨inside, unseen⟩ := taken
      simpa [ReplayWindow256.accept, valid, above, Nat.not_le.mpr inside, unseen] using
        tracks.mark valid (Nat.not_lt.mp above) inside

end

/-! ## Whole runs against the ideal window

The ideal window is the list of the numbers accepted so far. -/

/-- No bit stands for a number below zero. -/
def Grounded (window : ReplayWindow256) : Prop :=
  ∀ delta, delta < 256 → window.bitmap.testBit delta = true → delta ≤ window.maxSeq

theorem Grounded.accept (tracks : window.Tracks accepted) (grounded : window.Grounded) (seq : Nat) :
    (window.accept seq).2.Grounded := by
  intro delta inside
  cases valid : window.valid with
  | false =>
    obtain ⟨_, zeroed⟩ := tracks.unused valid
    simp only [ReplayWindow256.accept, valid, Bool.not_false, if_true, zeroed,
      testBit_setBit (show 0 < 256 by decide), testBit_zero, Bool.false_or,
      decide_eq_true_eq]
    omega
  | true =>
    simp only [ReplayWindow256.accept, valid, Bool.not_true, Bool.false_eq_true, if_false]
    split
    · -- a bit that was moved up by the shift stood for a number before it
      simp only [testBit_setBit (show 0 < 256 by decide),
        testBit_shiftRight _ _ inside, Bool.or_eq_true, Bool.and_eq_true,
        decide_eq_true_eq]
      rintro (⟨moved, bit⟩ | first)
      · have := grounded _ (by omega) bit
        omega
      · omega
    · split
      · exact grounded delta inside
      split
      · exact grounded delta inside
      · rename_i near _
        simp only [testBit_setBit (Nat.not_le.mp near), Bool.or_eq_true, decide_eq_true_eq]
        rintro (bit | marked)
        · exact grounded delta inside bit
        · omega

/-- One call of `accept`, and the accepted numbers after it. -/
def offer (state : ReplayWindow256 × List Nat) (seq : Nat) : ReplayWindow256 × List Nat :=
  let (taken, window) := state.1.accept seq
  (window, if taken then seq :: state.2 else state.2)

/-- Calls of `accept` on a new window. -/
def offers (seqs : List Nat) : ReplayWindow256 × List Nat :=
  seqs.foldl offer (default, [])

/-- The window stands for the ideal one, bit for bit. -/
structure Ideal (state : ReplayWindow256 × List Nat) : Prop where
  tracks : state.1.Tracks {number | number ∈ state.2}
  grounded : state.1.Grounded

theorem Ideal.default : Ideal (default, []) where
  tracks := by simpa using tracks_default
  grounded delta _ bit := by simp [ReplayWindow256.default] at bit

theorem Ideal.offer (ideal : Ideal state) (seq : Nat) : Ideal (offer state seq) := by
  refine ⟨?_, ideal.grounded.accept ideal.tracks seq⟩
  cases taken : (state.1.accept seq).1 with
  | false =>
    simp only [ReplayWindow256.offer, taken, snd_accept_of_refused taken, Bool.false_eq_true,
      if_false]
    exact ideal.tracks
  | true =>
    have joined := ideal.tracks.accept taken
    simp only [ReplayWindow256.offer, taken, if_true, List.mem_cons]
    exact joined

theorem ideal_offers (seqs : List Nat) : Ideal (offers seqs) :=
  List.foldlRecOn (motive := Ideal) seqs offer Ideal.default fun _ ideal seq _ => ideal.offer seq

theorem Ideal.testBit_iff (ideal : Ideal state) {idx : Nat} (inside : idx < 256) :
    state.1.bitmap.testBit idx = true ↔ ∃ number ∈ state.2, number + idx = state.1.maxSeq := by
  cases valid : state.1.valid with
  | false =>
    obtain ⟨none, zeroed⟩ := ideal.tracks.unused valid
    have nothing : ∀ number, number ∉ state.2 := fun number member =>
      (none ▸ (show number ∈ {number | number ∈ state.2} from member) : number ∈ (∅ : Set Nat))
    simp [zeroed, nothing]
  | true =>
    constructor
    · intro bit
      have low := ideal.grounded idx inside bit
      exact ⟨_, (ideal.tracks.recent valid idx inside low).mp bit, by omega⟩
    · rintro ⟨number, member, sum⟩
      refine (ideal.tracks.recent valid idx inside (by omega)).mpr ?_
      rwa [show state.1.maxSeq - idx = number by omega]

/-- `Fresh` in terms of the largest accepted number. -/
theorem fresh_iff_largest (accepted : List Nat) (seq : Nat) :
    Fresh {number | number ∈ accepted} seq ↔
      seq ∉ accepted ∧
      (accepted = [] ∨ ∃ largest, accepted.max? = some largest ∧ largest < seq + 256) := by
  refine and_congr_right fun _ => ?_
  cases found : accepted.max? with
  | none => simp [List.max?_eq_none_iff.mp found]
  | some largest =>
    obtain ⟨member, highest⟩ := List.max?_eq_some_iff.mp found
    constructor
    · intro near
      exact .inr ⟨largest, rfl, near largest member⟩
    · rintro (rfl | ⟨_, same, near⟩) other isOther
      · cases isOther
      · cases same
        exact (highest other isOther).trans_lt near

/-- Over every run from a new window, the window accepts and records what the ideal one does. -/
theorem replay_window_refines_ideal (seqs : List Nat) :
    (∀ seq, ((offers seqs).1.accept seq).1 = true ↔
      seq ∉ (offers seqs).2 ∧
      ((offers seqs).2 = [] ∨
        ∃ largest, (offers seqs).2.max? = some largest ∧ largest < seq + 256)) ∧
    (∀ idx, idx < 256 →
      ((offers seqs).1.bitmap.testBit idx = true ↔
        ∃ number ∈ (offers seqs).2, number + idx = (offers seqs).1.maxSeq)) ∧
    (∀ seq, (offers seqs).1.canAccept seq = ((offers seqs).1.accept seq).1) := by
  have ideal := ideal_offers seqs
  refine ⟨fun seq => ?_, fun idx inside => ideal.testBit_iff inside, fun seq => ?_⟩
  · rw [fst_accept, ideal.tracks.canAccept_iff, fresh_iff_largest]
  · rw [fst_accept]

end ReplayWindow256

end EasyTier.Tunnel
