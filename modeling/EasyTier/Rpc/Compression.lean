import EasyTier.Packet.Compressor

/-! # Compression of RPC contents

The bulk codec of zstd is outside the repository. Its decompressor fills a buffer whose capacity
the caller has to guess; five guesses are made, from twice the length of the body to 32 times.
-/

namespace EasyTier.Rpc

open Data Packet

inductive CompressionAlgoPb where
  | invalid
  | none
  | zstd
  deriving DecidableEq

inductive BulkError where
  | bufferTooSmall
  | other (text : String)

/-- The bulk codec of zstd, if it is part of the build. -/
structure BulkCodec where
  available : Bool
  compress : Bytes → Option Bytes
  decompress : Bytes → Nat → Except BulkError Bytes
  decompress_compress : ∀ {content body : Bytes}, compress content = some body → ∀ capacity,
    decompress body capacity =
      if content.length ≤ capacity then .ok content else .error .bufferTooSmall

/-- `CompressorAlgo::try_from`. -/
def CompressionAlgoPb.toAlgo : CompressionAlgoPb → Except String CompressorAlgo
  | .zstd => .ok .zstdDefault
  | .none => .ok .none
  | .invalid => .error "invalid compression algorithm: Invalid"

/-- `CompressionAlgoPb::try_from`, which never fails. -/
def CompressionAlgoPb.ofAlgo : CompressorAlgo → CompressionAlgoPb
  | .zstdDefault => .zstd
  | .none => .none

namespace BulkCodec

variable (codec : BulkCodec)

def isAvailable : CompressorAlgo → Bool
  | .none => true
  | .zstdDefault => codec.available

def unavailable : String :=
  "compression algorithm is unavailable in this build: ZstdDefault"

/-- `compress_raw`. -/
def compressRaw (data : Bytes) : CompressorAlgo → Except String Bytes
  | .none => .ok data
  | .zstdDefault =>
    if codec.available then
      match codec.compress data with
      | some body => .ok body
      | none => .error "Failed to compress data with algorithm: ZstdDefault"
    else .error unavailable

/-- The capacity of an attempt. -/
def capacity (length attempt : Nat) : Nat :=
  if attempt = 5 ∧ length * 2 ^ attempt < 64 * 1024 then 64 * 1024 else length * 2 ^ attempt

/-- The loop of `zstd::decompress` over the attempts that are left. -/
def decompressIn (data : Bytes) : List Nat → Except String Bytes
  | [] => .error "Failed to decompress data after multiple attempts with algorithm: ZstdDefault"
  | attempt :: rest =>
    match codec.decompress data (capacity data.length attempt) with
    | .ok buf => .ok buf
    | .error .bufferTooSmall => decompressIn data rest
    | .error (.other text) => .error text

/-- `decompress_raw`. -/
def decompressRaw (data : Bytes) : CompressorAlgo → Except String Bytes
  | .none => .ok data
  | .zstdDefault =>
    if codec.available then codec.decompressIn data [1, 2, 3, 4, 5] else .error unavailable

/-- The algorithm `compress_packet` uses for the accepted one. -/
def chooseAlgo (accepted : CompressionAlgoPb) : CompressorAlgo :=
  match accepted.toAlgo with
  | .ok algo => if codec.isAvailable algo then algo else .none
  | .error _ => .none

def compressPacket (accepted : CompressionAlgoPb) (content : Bytes) :
    Except String (Bytes × CompressionAlgoPb) :=
  match codec.compressRaw content (codec.chooseAlgo accepted) with
  | .error text => .error text
  | .ok compressed =>
    if content.length ≤ compressed.length then .ok (content, .none)
    else .ok (compressed, .ofAlgo (codec.chooseAlgo accepted))

def decompressPacket (algo : CompressionAlgoPb) (content : Bytes) : Except String Bytes :=
  match algo.toAlgo with
  | .error text => .error text
  | .ok algo => codec.decompressRaw content algo

variable {codec} {content body : Bytes}

/-- One of the attempts gives the content back if its capacity does. -/
theorem decompressIn_eq_ok_iff (packed : codec.compress content = some body)
    (attempts : List Nat) :
    codec.decompressIn body attempts = .ok content ↔
      ∃ attempt ∈ attempts, content.length ≤ capacity body.length attempt := by
  induction attempts with
  | nil => simp [decompressIn]
  | cons attempt rest ih =>
    rw [decompressIn, codec.decompress_compress packed]
    by_cases fits : content.length ≤ capacity body.length attempt
    · simp [fits]
    · simp [fits, ih]

theorem decompressPacket_eq_ok_iff (available : codec.available = true)
    (packed : codec.compress content = some body) :
    codec.decompressPacket .zstd body = .ok content ↔
      content.length ≤ max (32 * body.length) (64 * 1024) := by
  simp only [decompressPacket, CompressionAlgoPb.toAlgo, decompressRaw, available, if_true,
    decompressIn_eq_ok_iff packed, List.exists_mem_cons_iff, List.not_mem_nil, false_and,
    exists_false, or_false, capacity, Nat.reduceEqDiff, if_false, true_and]
  split <;> omega

theorem compressPacket_of_compress (available : codec.available = true)
    (packed : codec.compress content = some body) (shorter : body.length < content.length) :
    codec.compressPacket .zstd content = .ok (body, .zstd) := by
  simp [compressPacket, chooseAlgo, CompressionAlgoPb.toAlgo, isAvailable, compressRaw, available,
    packed, shorter, CompressionAlgoPb.ofAlgo]

/-- What is sent is the content as it is, or what the codec made of it. -/
theorem compressPacket_cases {accepted algo : CompressionAlgoPb}
    (sent : codec.compressPacket accepted content = .ok (body, algo)) :
    (algo = .none ∧ body = content) ∨
      (accepted = .zstd ∧ codec.available = true ∧ algo = .zstd ∧
        codec.compress content = some body) := by
  have chosen : codec.chooseAlgo accepted = .none ∨ accepted = .zstd ∧ codec.available = true ∧
      codec.chooseAlgo accepted = .zstdDefault := by
    cases accepted <;> cases available : codec.available <;>
      simp [chooseAlgo, CompressionAlgoPb.toAlgo, isAvailable, available]
  rcases chosen with chosen | ⟨rfl, available, chosen⟩
  · simp only [compressPacket, chosen, compressRaw, le_refl, if_true] at sent
    cases sent
    exact .inl ⟨rfl, rfl⟩
  · simp only [compressPacket, chosen, compressRaw, available, if_true] at sent
    cases packed : codec.compress content with
    | none => rw [packed] at sent; cases sent
    | some compressed =>
      simp only [packed] at sent
      split at sent
      · cases sent
        exact .inl ⟨rfl, rfl⟩
      · cases sent
        exact .inr ⟨rfl, available, rfl, rfl⟩

/-- Every content that is sent comes back, exactly if it is at most 64 KiB or zstd shrinks it by a
factor of at most 32. -/
theorem sent_contents_decompress_iff (codec : BulkCodec) (accepted : CompressionAlgoPb)
    (content : Bytes) :
    (∀ body algo, codec.compressPacket accepted content = .ok (body, algo) →
      codec.decompressPacket algo body = .ok content) ↔
    (accepted = .zstd → codec.available = true → ∀ body, codec.compress content = some body →
      content.length ≤ max (32 * body.length) (64 * 1024)) := by
  constructor
  · rintro comes rfl available body packed
    by_cases shorter : body.length < content.length
    · have sent := compressPacket_of_compress available packed shorter
      exact (decompressPacket_eq_ok_iff available packed).mp (comes body .zstd sent)
    · omega
  · intro shrinks body algo sent
    rcases compressPacket_cases sent with ⟨rfl, rfl⟩ | ⟨rfl, available, rfl, packed⟩
    · rfl
    · exact (decompressPacket_eq_ok_iff available packed).mpr (shrinks rfl available body packed)

/-- A run of zeros is packed into one byte, everything else gets a byte in front. -/
def zerosCodec (length : Nat) : BulkCodec where
  available := true
  compress content := some (if content = .replicate length 0 then [0] else 1 :: content)
  decompress body capacity :=
    match body with
    | 1 :: content => if content.length ≤ capacity then .ok content else .error .bufferTooSmall
    | _ => if length ≤ capacity then .ok (.replicate length 0) else .error .bufferTooSmall
  decompress_compress := by
    intro content body packed capacity
    split at packed
    · rename_i zeros
      cases packed
      simp [zeros]
    · cases packed
      simp

/-- A run of zeros longer than 64 KiB is sent as one byte, and no attempt gives it back. -/
theorem long_run_never_comes_back : ∃ (codec : BulkCodec) (content body : Bytes)
    (algo : CompressionAlgoPb), codec.compressPacket .zstd content = .ok (body, algo) ∧
      codec.decompressPacket algo body ≠ .ok content := by
  have packed : (zerosCodec 65537).compress (.replicate 65537 0) = some [0] :=
    congrArg some (if_pos rfl)
  refine ⟨zerosCodec 65537, .replicate 65537 0, [0], .zstd, ?_, ?_⟩
  · refine compressPacket_of_compress rfl packed ?_
    rw [List.length_replicate]
    decide
  · rw [ne_eq, decompressPacket_eq_ok_iff rfl packed, List.length_replicate]
    decide

end BulkCodec

end EasyTier.Rpc
