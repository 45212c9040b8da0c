import EasyTier.Packet.Header

/-! # Payload compression

The codec itself is outside the repository. Compression marks the header and appends one byte that
names the algorithm; decompression trusts the mark, checks that byte and the length in the header.
-/

namespace EasyTier.Packet

open Data

inductive CompressorAlgo where
  | none
  | zstdDefault
  deriving DecidableEq

/-- The two directions of the zstd codec, which can fail. -/
structure Codec where
  compress : Bytes → Option Bytes
  decompress : Bytes → Option Bytes

/-- `CompressorTail::new(ZstdDefault)`. -/
def compressorTail : Byte := 1

/-- `DefaultCompressor::compress`; a payload that would not get shorter is left as it is. -/
def compress (codec : Codec) (algo : CompressorAlgo) (packet : ZCPacket) : Option ZCPacket :=
  match algo with
  | .none => some packet
  | .zstdDefault =>
    if packet.header.isCompressed then
      some packet
    else
      (codec.compress packet.payload).map fun text =>
        if packet.header.len < text.length + 1 then
          packet
        else
          { header := packet.header.setCompressed true, payload := text ++ [compressorTail] }

/-- `DefaultCompressor::decompress`. -/
def decompress (codec : Codec) (packet : ZCPacket) : Option ZCPacket :=
  if !packet.header.isCompressed then
    some packet
  else if packet.payload.getLast? ≠ some compressorTail then
    none
  else
    match codec.decompress packet.payload.dropLast with
    | none => none
    | some text =>
      if text.length ≠ packet.header.len then none
      else some { header := packet.header.setCompressed false, payload := text }

/-- Compression touches the compressed flag and the payload only. -/
theorem compress_frame {codec : Codec} {algo : CompressorAlgo} {packet compressed : ZCPacket}
    (done : compress codec algo packet = some compressed) :
    compressed = packet ∨ packet.header.isCompressed = false ∧
      compressed.header = packet.header.setCompressed true ∧
      ∃ text, codec.compress packet.payload = some text ∧
        compressed.payload = text ++ [compressorTail] := by
  unfold compress at done
  split at done
  · cases done
    exact .inl rfl
  split at done
  · cases done
    exact .inl rfl
  · rename_i plain
    obtain ⟨text, packed, rfl⟩ := Option.map_eq_some_iff.mp done
    split
    · exact .inl rfl
    · exact .inr ⟨by simpa using plain, rfl, text, packed, rfl⟩

end EasyTier.Packet
