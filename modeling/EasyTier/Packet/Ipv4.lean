import EasyTier.Data.BigEndian

/-! # IPv4 packets

The fields of an IPv4 header at their places, as `smoltcp` reads and emits them, and what it means
for packets to be the fragments of another one.
-/

namespace EasyTier.Packet.Ipv4

open Data BigEndian Ipv4

/-- Length of a header without options. -/
def headerLength : Nat := 20

variable (packet : Bytes)

def version : Nat := read packet 0 1 / 16

/-- The length of the header, which counts words of four bytes. -/
def headerLen : Nat := read packet 0 1 % 16 * 4

def totalLen : Nat := read packet 2 2

def ident : Nat := read packet 4 2

def moreFrags : Bool := read packet 6 2 / 2 ^ 13 % 2 == 1

/-- The place of a fragment's content; the header counts units of eight bytes. -/
def fragOffset : Nat := read packet 6 2 % 2 ^ 13 * 8

def nextHeader : Nat := read packet 9 1

def srcAddr : Nat := read packet 12 4

def dstAddr : Nat := read packet 16 4

/-- The bytes between the header and the declared end. -/
def payload : Bytes :=
  (packet.drop (headerLen packet)).take (totalLen packet - headerLen packet)

/-- The header is complete and lies within the declared length, which lies within the packet. -/
@[mk_iff]
structure WellFormed (packet : Bytes) : Prop where
  version : version packet = 4
  header : headerLength ≤ headerLen packet
  declared : headerLen packet ≤ totalLen packet
  complete : totalLen packet ≤ packet.length

instance (packet : Bytes) : Decidable (WellFormed packet) :=
  decidable_of_iff' _ (wellFormed_iff packet)

/-! ## Headers that are written -/

/-- The fields of a header without options that differ from packet to packet. -/
structure Header where
  totalLen : BitVec 16
  ident : BitVec 16
  dontFrag : Bool
  moreFrags : Bool
  /-- In bytes; the header drops the last three bits. -/
  fragOffset : BitVec 16
  hopLimit : BitVec 8
  nextHeader : BitVec 8
  srcAddr : BitVec 32
  dstAddr : BitVec 32

namespace Header

/-- The flags and the offset of a fragment in one word. -/
def flagsWord (header : Header) : Nat :=
  header.dontFrag.toNat * 2 ^ 14 + header.moreFrags.toNat * 2 ^ 13 + header.fragOffset.toNat / 8

/-- The header with the given checksum; version 4, five words long, no traffic class. -/
def withChecksum (header : Header) (checksum : Nat) : Bytes :=
  [0x45, 0x00] ++ (encode 2 header.totalLen.toNat ++
    (encode 2 header.ident.toNat ++ (encode 2 header.flagsWord ++
      ([header.hopLimit, header.nextHeader] ++ (encode 2 checksum ++
        (encode 4 header.srcAddr.toNat ++ encode 4 header.dstAddr.toNat))))))

/-- The sum of the words of two bytes. -/
def wordSum : Bytes → Nat
  | high :: low :: rest => high.toNat * 256 + low.toNat + wordSum rest
  | [high] => high.toNat * 256
  | [] => 0

/-- Bring the carries of a sum of words back in. -/
def propagateCarries (sum : Nat) : Nat :=
  let folded := sum / 2 ^ 16 + sum % 2 ^ 16
  folded / 2 ^ 16 + folded % 2 ^ 16

/-- The header with its checksum filled in, which is computed while its place holds zero. -/
def emit (header : Header) : Bytes :=
  header.withChecksum (2 ^ 16 - 1 - propagateCarries (wordSum (header.withChecksum 0)))

variable (header : Header) (data : Bytes)

/-- A written header has no options. -/
@[simp] theorem length_emit : header.emit.length = headerLength := by
  simp [emit, withChecksum, headerLength]

/-- The flags and the offset fit in two bytes. -/
theorem flagsWord_lt : header.flagsWord < 256 ^ 2 := by
  have := header.dontFrag.toNat_le
  have := header.moreFrags.toNat_le
  simp only [flagsWord]
  omega

/-! The fields of a written header are read back, whatever its checksum is. -/

/-- Version four, and five words of header. -/
theorem firstByte_emit : read (header.emit ++ data) 0 1 = 0x45 := by
  rfl

/-- A field that does not meet the checksum is read as it was written. -/
theorem read_emit (offset width value : Nat) (fits : value < 256 ^ width)
    (placed : ∀ checksum, ((header.withChecksum checksum ++ data).drop offset).take width =
      encode width value) :
    read (header.emit ++ data) offset width = value := by
  rw [BigEndian.read, emit, placed, BigEndian.decode_encode fits]

/-- The length of the header. -/
@[simp] theorem headerLen_emit : headerLen (header.emit ++ data) = headerLength := by
  rw [headerLen, firstByte_emit, headerLength]

/-- The declared length of the packet. -/
@[simp] theorem totalLen_emit : Ipv4.totalLen (header.emit ++ data) = header.totalLen.toNat :=
  read_emit header data 2 2 header.totalLen.toNat header.totalLen.isLt fun _ => rfl

/-- The identification that fragments share. -/
@[simp] theorem ident_emit : Ipv4.ident (header.emit ++ data) = header.ident.toNat :=
  read_emit header data 4 2 header.ident.toNat header.ident.isLt fun _ => rfl

/-- The word of flags and offset. -/
theorem flagsWord_emit : read (header.emit ++ data) 6 2 = header.flagsWord :=
  read_emit header data 6 2 header.flagsWord header.flagsWord_lt fun _ => rfl

/-- The flag of a fragment that is not the last. -/
@[simp] theorem moreFrags_emit : Ipv4.moreFrags (header.emit ++ data) = header.moreFrags := by
  rw [Ipv4.moreFrags, flagsWord_emit, flagsWord]
  cases header.moreFrags <;> cases header.dontFrag <;> simp <;> omega

/-- The offset loses what is below a unit of eight bytes. -/
@[simp] theorem fragOffset_emit :
    Ipv4.fragOffset (header.emit ++ data) = header.fragOffset.toNat / 8 * 8 := by
  rw [Ipv4.fragOffset, flagsWord_emit, flagsWord]
  cases header.moreFrags <;> cases header.dontFrag <;> simp <;> omega

/-- The source address. -/
@[simp] theorem srcAddr_emit : Ipv4.srcAddr (header.emit ++ data) = header.srcAddr.toNat :=
  read_emit header data 12 4 header.srcAddr.toNat header.srcAddr.isLt fun _ => rfl

/-- The destination address. -/
@[simp] theorem dstAddr_emit : Ipv4.dstAddr (header.emit ++ data) = header.dstAddr.toNat :=
  read_emit header data 16 4 header.dstAddr.toNat header.dstAddr.isLt fun _ => rfl

/-- What follows the header is its payload, if the declared length counts it. -/
theorem payload_emit (fits : header.totalLen.toNat = headerLength + data.length) :
    Ipv4.payload (header.emit ++ data) = data := by
  rw [Ipv4.payload, headerLen_emit, totalLen_emit, fits, ← header.length_emit, List.drop_left,
    Nat.add_sub_cancel_left, List.take_length]

end Header

/-- A packet that is not a part of another one. -/
def Unfragmented : Prop := moreFrags packet = false ∧ fragOffset packet = 0

instance (packet : Bytes) : Decidable (Unfragmented packet) :=
  inferInstanceAs (Decidable (_ ∧ _))

/-- One fragment of a packet: a piece of its payload under a header of the same packet. -/
@[mk_iff]
structure FragmentOf (packet fragment : Bytes) : Prop where
  wellFormed : WellFormed fragment
  srcAddr : srcAddr fragment = srcAddr packet
  dstAddr : dstAddr fragment = dstAddr packet
  ident : ident fragment = ident packet
  nextHeader : nextHeader fragment = nextHeader packet
  inside : fragOffset fragment + (payload fragment).length ≤ (payload packet).length
  piece : payload fragment =
    ((payload packet).drop (fragOffset fragment)).take (payload fragment).length
  last : moreFrags fragment = false ↔
    fragOffset fragment + (payload fragment).length = (payload packet).length

instance (packet fragment : Bytes) : Decidable (FragmentOf packet fragment) :=
  decidable_of_iff' _ (fragmentOf_iff packet fragment)

/-- Fragments that reassemble to a packet: pieces of it that cover its payload. -/
@[mk_iff]
structure ReassembleTo (packet : Bytes) (fragments : List Bytes) : Prop where
  pieces : ∀ fragment ∈ fragments, FragmentOf packet fragment
  covered : ∀ place < (payload packet).length, ∃ fragment ∈ fragments,
    fragOffset fragment ≤ place ∧ place < fragOffset fragment + (payload fragment).length

instance (packet : Bytes) (fragments : List Bytes) : Decidable (ReassembleTo packet fragments) :=
  decidable_of_iff' _ (reassembleTo_iff packet fragments)

end EasyTier.Packet.Ipv4
