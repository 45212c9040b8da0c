import EasyTier.Packet.Header

/-! # Packet ciphers

The primitives are outside the repository and stay parameters; what the ciphers do around them
is modelled: which packets they step over, what they check, and how the tail is written.
-/

namespace EasyTier.Tunnel

open Data Packet

inductive EncryptionAlgorithm where
  | xor
  | aesGcm
  | aes256Gcm
  | chaCha20
  deriving DecidableEq

/-- `EncryptionAlgorithm::from_str`; names are compared in ASCII lower case. -/
def EncryptionAlgorithm.fromStr (name : String) : Option EncryptionAlgorithm :=
  let lower := name.toList.map Char.toLower
  if lower = "xor".toList then
    some .xor
  else if lower = "aes-gcm".toList ∨ lower = "openssl-aes-gcm".toList then
    some .aesGcm
  else if lower = "aes-256-gcm".toList ∨ lower = "openssl-aes-256-gcm".toList then
    some .aes256Gcm
  else if lower = "chacha20".toList ∨ lower = "chacha20-poly1305".toList ∨
      lower = "openssl-chacha20".toList then
    some .chaCha20
  else
    none

/-- `EncryptionAlgorithm::as_str`. -/
def EncryptionAlgorithm.asStr : EncryptionAlgorithm → String
  | .xor => "xor"
  | .aesGcm => "aes-gcm"
  | .aes256Gcm => "aes-256-gcm"
  | .chaCha20 => "chacha20"

/-- `is_aead_algorithm`. -/
def EncryptionAlgorithm.isAead : EncryptionAlgorithm → Bool
  | .xor => false
  | .aesGcm | .aes256Gcm | .chaCha20 => true

/-- What the crypto crates provide: HMAC-SHA256 of a message under a key, the detached AEAD
operations under a key and a nonce with empty associated data, and the algorithms of the build. -/
structure Primitives where
  hmacSha256 : Bytes → Bytes → Bytes
  sealDetached : EncryptionAlgorithm → Bytes → Bytes → Bytes → Option (Bytes × Bytes)
  openDetached : EncryptionAlgorithm → Bytes → Bytes → Bytes → Bytes → Option Bytes
  algorithmIsAvailable : EncryptionAlgorithm → Bool

inductive EncryptError where
  | packetTooShort (len : Nat)
  | decryptionFailed
  | encryptionFailed
  | invalidAlgorithm (name : String)
  | algorithmUnavailable (name : String)
  deriving DecidableEq

/-- The ciphers `create_encryptor` can return. -/
inductive Encryptor where
  | xor (key : Bytes)
  | aead (algorithm : EncryptionAlgorithm) (key : Bytes)
  | unsupported (error : EncryptError)
  deriving DecidableEq

variable (primitives : Primitives)

/-- `create_aes_128`, `create_aes_256` and `create_chacha20`. -/
def createAead (algorithm : EncryptionAlgorithm) (key : Bytes) :
    Encryptor :=
  if primitives.algorithmIsAvailable algorithm then .aead algorithm key
  else .unsupported (.algorithmUnavailable algorithm.asStr)

def createEncryptor (algorithm : String) (key128 key256 : Bytes) :
    Encryptor :=
  match EncryptionAlgorithm.fromStr algorithm with
  | none => .unsupported (.invalidAlgorithm algorithm)
  | some .xor => .xor key128
  | some .aesGcm => createAead primitives .aesGcm key128
  | some .aes256Gcm => createAead primitives .aes256Gcm key256
  | some .chaCha20 => createAead primitives .chaCha20 key256

/-- `XorCipher::xor_data`. -/
def xorData (key data : Bytes) : Bytes :=
  data.mapIdx fun index byte => byte ^^^ BitBuffer.byteAt key (index % key.length)

/-- `AesGcmCipher::decrypt`, which the other AEAD backends repeat. A packet whose encrypted flag
is clear is left as it is and reported as decrypted. -/
def decryptAead (algorithm : EncryptionAlgorithm) (key : Bytes)
    (packet : ZCPacket) : Except EncryptError ZCPacket :=
  if !packet.header.isEncrypted then
    .ok packet
  else
    match AeadTail.refFromSuffix packet.payload with
    | none => .error (.packetTooShort packet.payload.length)
    | some tail =>
      let text := packet.payload.take (packet.payload.length - AeadTail.size)
      match primitives.openDetached algorithm key tail.nonce text tail.tag with
      | none => .error .decryptionFailed
      | some plain => .ok { header := packet.header.setEncrypted false, payload := plain }

/-- `AesGcmCipher::encrypt_with_nonce`. A packet whose encrypted flag is set is left as it is. -/
def encryptAeadWithNonce (algorithm : EncryptionAlgorithm) (key : Bytes)
    (packet : ZCPacket) (nonce : Bytes) : Except EncryptError ZCPacket :=
  if packet.header.isEncrypted then
    .ok packet
  else if nonce.length ≠ AeadTail.nonceSize then
    .error .encryptionFailed
  else
    match primitives.sealDetached algorithm key nonce packet.payload with
    | none => .error .encryptionFailed
    | some (text, tag) =>
      .ok { header := packet.header.setEncrypted true,
            payload := text ++ AeadTail.asBytes { tag := tag, nonce := nonce } }

/-- `Encryptor::decrypt`. -/
def Encryptor.decrypt (encryptor : Encryptor) (packet : ZCPacket) :
    Except EncryptError ZCPacket :=
  match encryptor with
  | .xor key =>
    if !packet.header.isEncrypted then .ok packet
    else .ok { header := packet.header.setEncrypted false, payload := xorData key packet.payload }
  | .aead algorithm key => decryptAead primitives algorithm key packet
  | .unsupported error => .error error

/-- `Encryptor::encrypt_with_nonce` with a nonce given; only the AEAD ciphers use it. -/
def Encryptor.encryptWithNonce (encryptor : Encryptor)
    (packet : ZCPacket) (nonce : Bytes) : Except EncryptError ZCPacket :=
  match encryptor with
  | .xor key =>
    if packet.header.isEncrypted then .ok packet
    else .ok { header := packet.header.setEncrypted true, payload := xorData key packet.payload }
  | .aead algorithm key => encryptAeadWithNonce primitives algorithm key packet nonce
  | .unsupported error => .error error

/-- No cipher touches a packet that is flagged already. -/
theorem Encryptor.encryptWithNonce_of_flagged {primitives : Primitives} {encryptor : Encryptor}
    {packet sealed : ZCPacket} {nonce : Bytes} (flagged : packet.header.isEncrypted = true)
    (encrypts : encryptor.encryptWithNonce primitives packet nonce = .ok sealed) :
    sealed = packet := by
  cases encryptor with
  | xor | aead =>
    simp only [encryptWithNonce, encryptAeadWithNonce, flagged, if_true,
      Except.ok.injEq] at encrypts
    exact encrypts.symm
  | unsupported => cases encrypts

/-- Primitives that seal by copying the text and writing an empty tag. -/
def Primitives.transparent : Primitives where
  hmacSha256 _ message := message
  sealDetached _ _ _ plain := some (plain, List.replicate AeadTail.tagSize 0#8)
  openDetached _ _ _ text tag :=
    if tag = List.replicate AeadTail.tagSize 0#8 then some text else none
  algorithmIsAvailable _ := true

end EasyTier.Tunnel
