import EasyTier.Data.BitBuffer

/-! # Codecs that read back what they wrote

A codec writes values as bytes and reads them from the front of any bytes that start with them.
Codecs of parts make codecs of pairs, lists and everything that can be recovered from those.
-/

namespace EasyTier.Data

/-- Bytes for values, read back whatever follows them. -/
structure Codec (Value : Type) where
  write : Value → Bytes
  read : Bytes → Option (Value × Bytes)
  read_write : ∀ value rest, read (write value ++ rest) = some (value, rest)

namespace Codec

variable {Value Other : Type} (codec : Codec Value)

/-- The value alone, with nothing after it. -/
def decode (codec : Codec Value) (bytes : Bytes) : Option Value :=
  (codec.read bytes).map Prod.fst

theorem decode_write (value : Value) :
    codec.decode (codec.write value) = some value := by
  have read := codec.read_write value []
  rw [List.append_nil] at read
  rw [decode, read]
  rfl

/-- A number in groups of seven bits, the lowest first; all bytes but the last have their top bit
set. The fuel is a bound on the further groups. -/
def writeVarint : Nat → Nat → Bytes
  | 0, number => [.ofNat 8 number]
  | fuel + 1, number =>
    if number < 128 then [.ofNat 8 number]
    else .ofNat 8 (number % 128 + 128) :: writeVarint fuel (number / 128)

def readVarint : Bytes → Option (Nat × Bytes)
  | [] => none
  | byte :: bytes =>
    if byte.toNat < 128 then some (byte.toNat, bytes)
    else (readVarint bytes).map fun (number, rest) => (number * 128 + (byte.toNat - 128), rest)

theorem readVarint_writeVarint (fuel number : Nat) (rest : Bytes)
    (enough : number < 128 ^ (fuel + 1)) :
    readVarint (writeVarint fuel number ++ rest) = some (number, rest) := by
  induction fuel generalizing number with
  | zero =>
    have small : number % 256 = number := Nat.mod_eq_of_lt (by omega)
    simp only [writeVarint, List.cons_append, List.nil_append, readVarint, BitVec.toNat_ofNat]
    rw [small, if_pos (by omega)]
  | succ fuel ih =>
    unfold writeVarint
    split
    · rename_i small
      simp [readVarint, Nat.mod_eq_of_lt (Nat.lt_trans small (by decide : 128 < 256)), small]
    · have higher := ih (number / 128) (Nat.div_lt_of_lt_mul (by rw [pow_succ] at enough; omega))
      have byte : (number % 128 + 128) % 256 = number % 128 + 128 := Nat.mod_eq_of_lt (by omega)
      simp only [List.cons_append, readVarint, BitVec.toNat_ofNat, higher]
      rw [byte, if_neg (by omega), Option.map_some]
      have whole : number / 128 * 128 + (number % 128 + 128 - 128) = number := by omega
      rw [whole]

/-- Numbers as protobuf writes them, seven bits to a byte. -/
def varint : Codec Nat where
  write number := writeVarint number.log2 number
  read := readVarint
  read_write number rest := by
    refine readVarint_writeVarint _ _ _ (Nat.lt_of_lt_of_le Nat.lt_log2_self ?_)
    exact Nat.pow_le_pow_left (by decide) _

def pair (first : Codec Value) (second : Codec Other) : Codec (Value × Other) where
  write value := first.write value.1 ++ second.write value.2
  read bytes := do
    let (value, bytes) ← first.read bytes
    let (other, rest) ← second.read bytes
    pure ((value, other), rest)
  read_write value rest := by
    simp [List.append_assoc, first.read_write, second.read_write]

/-- Read a given number of values. -/
def readMany (codec : Codec Value) : Nat → Bytes → Option (List Value × Bytes)
  | 0, bytes => some ([], bytes)
  | count + 1, bytes => do
    let (value, bytes) ← codec.read bytes
    let (values, rest) ← readMany codec count bytes
    pure (value :: values, rest)

theorem readMany_flatMap_write (values : List Value) (rest : Bytes) :
    codec.readMany values.length (values.flatMap codec.write ++ rest) = some (values, rest) := by
  induction values with
  | nil => rfl
  | cons value values ih =>
    simp [readMany, List.append_assoc, codec.read_write, ih]

/-- Lists, after their length. -/
def list (codec : Codec Value) : Codec (List Value) where
  write values := varint.write values.length ++ values.flatMap codec.write
  read bytes := do
    let (count, bytes) ← varint.read bytes
    codec.readMany count bytes
  read_write values rest := by
    simp [List.append_assoc, varint.read_write, codec.readMany_flatMap_write]

/-- Values that can be recovered from what a codec handles. -/
def via (codec : Codec Value) (carry : Other → Value) (back : Value → Other)
    (recovers : ∀ other, back (carry other) = other) : Codec Other where
  write other := codec.write (carry other)
  read bytes := (codec.read bytes).map fun (value, rest) => (back value, rest)
  read_write other rest := by
    rw [codec.read_write, Option.map_some]
    dsimp only
    rw [recovers]

def option (codec : Codec Value) : Codec (Option Value) :=
  codec.list.via Option.toList List.head? fun value => by cases value <;> rfl

def int : Codec Int :=
  (varint.pair varint).via (fun number => (number.toNat, (-number).toNat))
    (fun parts => parts.1 - parts.2) fun number => by omega

def bool : Codec Bool :=
  varint.via Bool.toNat (· == 1) fun value => by cases value <;> rfl

def byte : Codec Byte where
  write value := [value]
  read bytes := bytes.head?.map (·, bytes.tail)
  read_write _ _ := rfl

def text : Codec String :=
  varint.list.via (fun text => text.toList.map Char.toNat)
    (fun codes => String.ofList (codes.map Char.ofNat)) fun text => by
      have codes : (text.toList.map Char.toNat).map Char.ofNat = text.toList := by
        rw [List.map_map]
        exact List.map_id'' (fun character => Char.ofNat_toNat character) _
      rw [codes, String.ofList_toList]

end Codec

end EasyTier.Data
