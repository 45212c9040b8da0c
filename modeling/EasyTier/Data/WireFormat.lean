import EasyTier.Data.BitBuffer

/-! # The protobuf wire format

A message is a sequence of fields, each a key and a value whose extent the key tells: varints, words
of fixed length, length-delimited bytes, and groups, which hold fields themselves. Readers take a
value from the front of the input and return the rest; what they take does not depend on what
follows it. The readers, their order and their errors are those of `prost`.
-/

namespace EasyTier.Data.WireFormat

inductive DecodeError where
  | invalidVarint
  | invalidKey
  | invalidWireType
  | invalidTag
  | unexpectedEndGroupTag
  | bufferUnderflow
  | recursionLimitReached
  | unexpectedWireType
  | invalidMessage
  deriving DecidableEq, Repr

inductive WireType where
  | varint
  | sixtyFourBit
  | lengthDelimited
  | startGroup
  | endGroup
  | thirtyTwoBit
  deriving DecidableEq, Repr

namespace WireType

/-- The low three bits of a key. -/
def code : WireType → Nat
  | varint => 0
  | sixtyFourBit => 1
  | lengthDelimited => 2
  | startGroup => 3
  | endGroup => 4
  | thirtyTwoBit => 5

def ofCode? : Nat → Option WireType
  | 0 => some varint
  | 1 => some sixtyFourBit
  | 2 => some lengthDelimited
  | 3 => some startGroup
  | 4 => some endGroup
  | 5 => some thirtyTwoBit
  | _ => none

@[simp] theorem ofCode?_code (wireType : WireType) : ofCode? wireType.code = some wireType := by
  cases wireType <;> rfl

theorem code_lt (wireType : WireType) : wireType.code < 8 := by
  cases wireType <;> decide

end WireType

/-! ## Readers -/

/-- A value from the front of the input, and the rest. -/
abbrev Reader (Error Value : Type) := Bytes → Except Error (Value × Bytes)

namespace Reader

variable {Error Value Other : Type}

/-- Bytes from which a value is read, whatever follows them. -/
def Reads (read : Reader Error Value) (taken : Bytes) (value : Value) : Prop :=
  ∀ rest, read (taken ++ rest) = .ok (value, rest)

/-- What is read depends only on the bytes that are taken. -/
def Local (read : Reader Error Value) : Prop :=
  ∀ ⦃input value rest⦄, read input = .ok (value, rest) →
    ∃ taken, input = taken ++ rest ∧ Reads read taken value

/-- Read one value and then, as it says, another. -/
def andThen (read : Reader Error Value) (next : Value → Reader Error Other) : Reader Error Other :=
  fun input => (read input).bind fun (value, rest) => next value rest

section

variable {read : Reader Error Value} {next : Value → Reader Error Other}

theorem andThen_eq_ok
    {input rest : Bytes} {other : Other} :
    andThen read next input = .ok (other, rest) ↔
      ∃ value middle, read input = .ok (value, middle) ∧ next value middle = .ok (other, rest) := by
  unfold andThen
  cases read input with
  | error error => simp [Except.bind]
  | ok result => simp [Except.bind, Prod.ext_iff, and_assoc, eq_comm]

theorem Reads.andThen
    {taken more : Bytes} {value : Value} {other : Other} (first : Reads read taken value)
    (second : Reads (next value) more other) :
    Reads (andThen read next) (taken ++ more) other := by
  intro rest
  rw [andThen_eq_ok]
  exact ⟨value, more ++ rest, by rw [List.append_assoc, first], second rest⟩

theorem Local.andThen
    (first : Local read) (second : ∀ value, Local (next value)) :
    Local (andThen read next) := by
  intro input other rest done
  obtain ⟨value, middle, begun, ended⟩ := andThen_eq_ok.mp done
  obtain ⟨taken, rfl, reads⟩ := first begun
  obtain ⟨more, rfl, readsMore⟩ := second value ended
  exact ⟨taken ++ more, (List.append_assoc ..).symm, reads.andThen readsMore⟩

end

/-- Return a value, or fail, and take nothing. -/
def give (result : Except Error Value) : Reader Error Value := fun input => result.map (·, input)

theorem Local.give (result : Except Error Value) : Local (give result) := by
  intro input value rest done
  cases result with
  | error error => cases done
  | ok given =>
    cases done
    exact ⟨[], rfl, fun _ => rfl⟩

/-- Take a number of bytes. -/
def take (error : Error) (count : Nat) : Reader Error Bytes := fun input =>
  if input.length < count then .error error else .ok (input.take count, input.drop count)

theorem take_eq_ok_iff {error : Error} {count : Nat} {input taken rest : Bytes} :
    take error count input = .ok (taken, rest) ↔
      taken.length = count ∧ input = taken ++ rest := by
  unfold take
  split
  · rename_i short
    constructor
    · rintro ⟨⟩
    · rintro ⟨rfl, rfl⟩
      rw [List.length_append] at short
      omega
  · constructor
    · rintro ⟨⟩
      exact ⟨by simp; omega, (List.take_append_drop count input).symm⟩
    · rintro ⟨rfl, rfl⟩
      simp

theorem Reads.take (error : Error) (taken : Bytes) :
    Reads (take error taken.length) taken taken := fun _ =>
  take_eq_ok_iff.mpr ⟨rfl, rfl⟩

theorem Local.take (error : Error) (count : Nat) : Local (take error count) := by
  intro input taken rest done
  obtain ⟨rfl, rfl⟩ := take_eq_ok_iff.mp done
  exact ⟨taken, rfl, Reads.take error taken⟩

end Reader

open Reader

/-! ## Varints -/

/-- Write at most `count` bytes of seven bits each, the lowest first. -/
def encodeVarintFor : Nat → Nat → Bytes
  | 0, _ => []
  | count + 1, value =>
    if value < 128 then [BitVec.ofNat 8 value]
    else BitVec.ofNat 8 (value % 128 + 128) :: encodeVarintFor count (value / 128)

/-- `encode_varint`, for a value of 64 bits. -/
def encodeVarint (value : Nat) : Bytes := encodeVarintFor 10 value

/-- Read at most `count` bytes; the last of them may hold a single bit. -/
def decodeVarintFor : Nat → Reader DecodeError Nat
  | 0, _ => .error .invalidVarint
  | _ + 1, [] => .error .invalidVarint
  | count + 1, byte :: rest =>
    if byte.toNat < 128 then
      if count = 0 ∧ 2 ≤ byte.toNat then .error .invalidVarint else .ok (byte.toNat, rest)
    else
      (decodeVarintFor count rest).map fun (value, rest) => (byte.toNat - 128 + 128 * value, rest)

/-- `decode_varint`. -/
def decodeVarint : Reader DecodeError Nat := decodeVarintFor 10

theorem decodeVarintFor_local (count : Nat) : Local (decodeVarintFor count) := by
  intro input value rest done
  induction count generalizing input value with
  | zero => cases done
  | succ count ih =>
    cases input with
    | nil => cases done
    | cons byte input =>
      unfold decodeVarintFor at done
      split at done
      · rename_i isLast
        split at done
        · cases done
        rename_i fits
        cases done
        refine ⟨[byte], rfl, fun other => ?_⟩
        rw [List.singleton_append, decodeVarintFor, if_pos isLast, if_neg fits]
      · rename_i isNotLast
        cases later : decodeVarintFor count input with
        | error error =>
          rw [later] at done
          cases done
        | ok result =>
          rw [later] at done
          cases done
          obtain ⟨taken, rfl, reads⟩ := ih later
          refine ⟨byte :: taken, rfl, fun other => ?_⟩
          rw [List.cons_append, decodeVarintFor, if_neg isNotLast, reads]
          rfl

theorem decodeVarint_local : Local decodeVarint := decodeVarintFor_local 10

theorem encodeVarintFor_reads (count : Nat) {value : Nat} (fits : value < 2 * 128 ^ count) :
    Reads (decodeVarintFor (count + 1)) (encodeVarintFor (count + 1) value) value := by
  intro rest
  induction count generalizing value with
  | zero =>
    have small : value < 128 := by omega
    have same : (BitVec.ofNat 8 value).toNat = value := by
      rw [BitVec.toNat_ofNat]
      omega
    rw [encodeVarintFor, if_pos small, List.singleton_append, decodeVarintFor, same, if_pos small,
      if_neg (by omega)]
  | succ count ih =>
    rw [encodeVarintFor]
    split
    · rename_i small
      have same : (BitVec.ofNat 8 value).toNat = value := by
        rw [BitVec.toNat_ofNat]
        omega
      rw [List.singleton_append, decodeVarintFor, same, if_pos small, if_neg (by omega)]
    · have low : (BitVec.ofNat 8 (value % 128 + 128)).toNat = value % 128 + 128 := by
        rw [BitVec.toNat_ofNat]
        omega
      have high : value / 128 < 2 * 128 ^ count := by
        omega
      rw [List.cons_append, decodeVarintFor, low, if_neg (by omega), ih high]
      have whole : value % 128 + 128 - 128 + 128 * (value / 128) = value := by omega
      exact congrArg (fun number => Except.ok (number, rest)) whole

/-- A varint of 64 bits is read back. -/
theorem encodeVarint_reads {value : Nat} (fits : value < 2 ^ 64) :
    Reads decodeVarint (encodeVarint value) value :=
  encodeVarintFor_reads 9 fits

/-! ## Keys -/

/-- `encode_key`. -/
def encodeKey (tag : Nat) (wireType : WireType) : Bytes := encodeVarint (tag * 8 + wireType.code)

/-- The tag and wire type of a key. -/
def keyParts (key : Nat) : Except DecodeError (Nat × WireType) :=
  if 2 ^ 32 ≤ key then .error .invalidKey
  else
    match WireType.ofCode? (key % 8) with
    | none => .error .invalidWireType
    | some wireType => if key / 8 = 0 then .error .invalidTag else .ok (key / 8, wireType)

/-- `decode_key`. -/
def decodeKey : Reader DecodeError (Nat × WireType) :=
  decodeVarint.andThen fun key => give (keyParts key)

theorem decodeKey_local : Local decodeKey :=
  decodeVarint_local.andThen fun _ => Local.give _

variable {tag : Nat} {input rest : Bytes}

theorem keyParts_key (positive : 0 < tag) (small : tag < 2 ^ 29) (wireType : WireType) :
    keyParts (tag * 8 + wireType.code) = .ok (tag, wireType) := by
  have bound := wireType.code_lt
  have isTag : (tag * 8 + wireType.code) / 8 = tag := by omega
  have isCode : (tag * 8 + wireType.code) % 8 = wireType.code := by omega
  unfold keyParts
  rw [if_neg (by omega), isCode, WireType.ofCode?_code]
  dsimp only
  rw [isTag, if_neg (Nat.ne_of_gt positive)]

theorem encodeKey_reads (positive : 0 < tag) (small : tag < 2 ^ 29)
    (wireType : WireType) : Reads decodeKey (encodeKey tag wireType) (tag, wireType) := by
  have bound := wireType.code_lt
  have read : Reads decodeVarint (encodeKey tag wireType) (tag * 8 + wireType.code) :=
    encodeVarint_reads (by omega)
  intro rest
  rw [decodeKey, andThen_eq_ok]
  refine ⟨_, rest, read rest, ?_⟩
  rw [keyParts_key positive small]
  rfl

/-- A key takes at least a byte. -/
theorem decodeKey_taken {taken : Bytes} {key : Nat × WireType} (reads : Reads decodeKey taken key) :
    0 < taken.length := by
  cases taken with
  | nil => cases reads []
  | cons byte taken => exact Nat.succ_pos _

/-! ## Skipping values -/

/-- The fields of a group up to its end; `fuel` bounds their number. -/
def skipGroup (skip : WireType → Nat → Reader DecodeError Unit) (tag : Nat) :
    Nat → Reader DecodeError Unit
  -- not reached: every field takes a byte
  | 0 => give (.error .bufferUnderflow)
  | fuel + 1 => decodeKey.andThen fun (innerTag, innerType) =>
      if innerType = .endGroup then
        give (if innerTag = tag then .ok () else .error .unexpectedEndGroupTag)
      else (skip innerType innerTag).andThen fun _ => skipGroup skip tag fuel

/-- `skip_field`, with the levels of recursion that are left. -/
def skipField : Nat → WireType → Nat → Reader DecodeError Unit
  | 0, _, _ => give (.error .recursionLimitReached)
  | _ + 1, .varint, _ => decodeVarint.andThen fun _ => give (.ok ())
  | _ + 1, .thirtyTwoBit, _ => (take .bufferUnderflow 4).andThen fun _ => give (.ok ())
  | _ + 1, .sixtyFourBit, _ => (take .bufferUnderflow 8).andThen fun _ => give (.ok ())
  | _ + 1, .lengthDelimited, _ =>
    decodeVarint.andThen fun count => (take .bufferUnderflow count).andThen fun _ => give (.ok ())
  | depth + 1, .startGroup, tag => fun input =>
    skipGroup (skipField depth) tag (input.length + 1) input
  | _ + 1, .endGroup, _ => give (.error .unexpectedEndGroupTag)

/-- The levels of recursion of `DecodeContext::default`. -/
def recursionLimit : Nat := 100

/-- A group is read alike with any fuel above its length. -/
theorem skipGroup_local {skip : WireType → Nat → Reader DecodeError Unit}
    (skips : ∀ wireType tag, Local (skip wireType tag)) {fuel : Nat}
    (done : skipGroup skip tag fuel input = .ok ((), rest)) :
    ∃ taken, input = taken ++ rest ∧
      ∀ more, taken.length < more → Reads (skipGroup skip tag more) taken () := by
  induction fuel generalizing input with
  | zero => cases done
  | succ fuel ih =>
    obtain ⟨⟨innerTag, innerType⟩, middle, begun, ended⟩ := andThen_eq_ok.mp done
    obtain ⟨key, rfl, readsKey⟩ := decodeKey_local begun
    have keyLength := decodeKey_taken readsKey
    dsimp only at ended
    split at ended
    · rename_i isEnd
      obtain ⟨nothing, rfl, givesNothing⟩ := Local.give _ ended
      refine ⟨key ++ nothing, (List.append_assoc ..).symm, fun more enough => ?_⟩
      obtain ⟨more, rfl⟩ := Nat.exists_eq_succ_of_ne_zero (Nat.ne_zero_of_lt enough)
      refine readsKey.andThen ?_
      dsimp only
      rw [if_pos isEnd]
      exact givesNothing
    · rename_i isField
      obtain ⟨_, after, skipped, others⟩ := andThen_eq_ok.mp ended
      obtain ⟨field, rfl, readsField⟩ := skips innerType innerTag skipped
      obtain ⟨taken, rfl, readsRest⟩ := ih others
      refine ⟨key ++ (field ++ taken), by simp, fun more enough => ?_⟩
      simp only [List.length_append] at enough
      obtain ⟨more, rfl⟩ := Nat.exists_eq_succ_of_ne_zero (Nat.ne_zero_of_lt enough)
      refine readsKey.andThen ?_
      dsimp only
      rw [if_neg isField]
      exact readsField.andThen (readsRest more (by omega))

theorem skipField_local (depth : Nat) (wireType : WireType) (tag : Nat) :
    Local (skipField depth wireType tag) := by
  induction depth generalizing wireType tag with
  | zero => exact Local.give _
  | succ depth ih =>
    cases wireType with
    | varint => exact decodeVarint_local.andThen fun _ => Local.give _
    | sixtyFourBit | thirtyTwoBit => exact (Local.take _ _).andThen fun _ => Local.give _
    | lengthDelimited =>
      exact decodeVarint_local.andThen fun _ => (Local.take _ _).andThen fun _ => Local.give _
    | endGroup => exact Local.give _
    | startGroup =>
      intro input value rest done
      obtain ⟨taken, rfl, reads⟩ := skipGroup_local ih done
      refine ⟨taken, rfl, fun other => reads _ ?_ other⟩
      simp only [List.length_append]
      omega

theorem skipGroup_mono {skip other : WireType → Nat → Reader DecodeError Unit}
    (weaker : ∀ wireType tag input rest, skip wireType tag input = .ok ((), rest) →
      other wireType tag input = .ok ((), rest)) {fuel : Nat}
    (done : skipGroup skip tag fuel input = .ok ((), rest)) :
    skipGroup other tag fuel input = .ok ((), rest) := by
  induction fuel generalizing input with
  | zero => cases done
  | succ fuel ih =>
    obtain ⟨⟨innerTag, innerType⟩, middle, begun, ended⟩ := andThen_eq_ok.mp done
    refine andThen_eq_ok.mpr ⟨(innerTag, innerType), middle, begun, ?_⟩
    dsimp only at ended ⊢
    split at ended
    · rename_i isEnd
      rwa [if_pos isEnd]
    · rename_i isField
      rw [if_neg isField]
      obtain ⟨_, after, skipped, others⟩ := andThen_eq_ok.mp ended
      exact andThen_eq_ok.mpr ⟨(), after, weaker _ _ _ _ skipped, ih others⟩

/-- With more levels of recursion left, whatever is skipped is skipped alike. -/
theorem skipField_mono {depth : Nat} {wireType : WireType}
    (done : skipField depth wireType tag input = .ok ((), rest)) :
    skipField (depth + 1) wireType tag input = .ok ((), rest) := by
  induction depth generalizing wireType tag input rest with
  | zero => cases done
  | succ depth ih =>
    cases wireType with
    | varint | sixtyFourBit | thirtyTwoBit | lengthDelimited | endGroup => exact done
    | startGroup => exact skipGroup_mono (fun _ _ _ _ => ih) done

end EasyTier.Data.WireFormat
