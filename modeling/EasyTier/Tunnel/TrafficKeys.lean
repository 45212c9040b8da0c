import EasyTier.Tunnel.RxSlots

/-! # Traffic keys and their cache

Every epoch and direction has a traffic key derived from the root key, and a session caches the
ciphers made from it. A cached cipher is always the one the current root key gives, so what a
session seals or accepts depends on its root key, its algorithms and the nonce alone.
-/

namespace EasyTier.Tunnel

open Data Packet Encryptor

/-- The names of the AEAD algorithms. -/
def IsAead (name : String) : Prop := (EncryptionAlgorithm.fromStr name).any (·.isAead) = true

instance (name : String) : Decidable (IsAead name) := inferInstanceAs (Decidable (_ = true))

/-- The part of a traffic key an algorithm uses. -/
def EncryptionAlgorithm.cipherKey (algorithm : EncryptionAlgorithm) (key : Bytes) : Bytes :=
  if algorithm = .aesGcm ∨ algorithm = .xor then key.take 16 else key

/-- An AEAD name gives an AEAD cipher, or one that refuses everything. -/
theorem createEncryptor_of_isAead (primitives : Primitives) {name : String} (aead : IsAead name)
    (key : Bytes) :
    (∃ algorithm : EncryptionAlgorithm, algorithm.isAead = true ∧
      createEncryptor primitives name (key.take 16) key =
        .aead algorithm (algorithm.cipherKey key)) ∨
    ∃ error, createEncryptor primitives name (key.take 16) key = .unsupported error := by
  unfold IsAead at aead
  unfold createEncryptor createAead
  cases named : EncryptionAlgorithm.fromStr name with
  | none => exact .inr ⟨_, rfl⟩
  | some algorithm =>
    rw [named] at aead
    cases algorithm with
    | xor => cases aead
    | aesGcm | aes256Gcm | chaCha20 =>
      dsimp only
      split
      · exact .inl ⟨_, rfl, rfl⟩
      · exact .inr ⟨_, rfl⟩

namespace SecureDatagramSession

/-- The cipher of an epoch and direction. -/
def trafficCipher (primitives : Primitives) (session : SecureDatagramSession) (epoch : Nat)
    (dir : SecureDatagramDirection) (isSend : Bool) : Encryptor :=
  let key := hkdfTrafficKey primitives session.rootKey epoch dir
  createEncryptor primitives
    (if isSend then session.sendCipherAlgorithm else session.recvCipherAlgorithm) (key.take 16) key

/-- Every cached cipher is the one of its epoch and direction. -/
def KeysDerived (primitives : Primitives) (session : SecureDatagramSession) : Prop :=
  ∀ dir position, ((session.keyCache.get dir).get position).valid = true → ∀ isSend,
    getEncryptor ((session.keyCache.get dir).get position) isSend =
      session.trafficCipher primitives ((session.keyCache.get dir).get position).epoch dir isSend

/-- What a cipher is made from stays as it is. -/
structure SameKeys (before after : SecureDatagramSession) : Prop where
  rootKey : after.rootKey = before.rootKey
  sendAlgorithm : after.sendCipherAlgorithm = before.sendCipherAlgorithm
  recvAlgorithm : after.recvCipherAlgorithm = before.recvCipherAlgorithm

theorem SameKeys.trafficCipher {before after : SecureDatagramSession}
    (same : SameKeys before after) (primitives : Primitives) (epoch : Nat)
    (dir : SecureDatagramDirection) (isSend : Bool) :
    after.trafficCipher primitives epoch dir isSend =
      before.trafficCipher primitives epoch dir isSend := by
  simp only [SecureDatagramSession.trafficCipher, same.rootKey, same.sendAlgorithm,
    same.recvAlgorithm]

variable {primitives : Primitives} {session : SecureDatagramSession}

theorem KeysDerived.of_sameKeys {before after : SecureDatagramSession}
    (derived : before.KeysDerived primitives) (same : SameKeys before after)
    (keyCache : after.keyCache = before.keyCache) : after.KeysDerived primitives := by
  intro dir position valid isSend
  rw [keyCache] at valid ⊢
  rw [same.trafficCipher]
  exact derived dir position valid isSend

theorem keysDerived_of_cleared (primitives : Primitives)
    (cleared : session.keyCache = .both (.both .default)) : session.KeysDerived primitives := by
  intro dir position valid
  rw [cleared] at valid
  simp [EpochKeySlot.default] at valid

theorem getEncryptor_newKeySlot (primitives : Primitives) (session : SecureDatagramSession)
    (epoch : Nat) (dir : SecureDatagramDirection) (generation : Nat) (isSend : Bool) :
    getEncryptor (newKeySlot primitives session epoch dir generation) isSend =
      session.trafficCipher primitives epoch dir isSend := by
  cases isSend <;> rfl

section

variable (derived : session.KeysDerived primitives)
include derived

/-- Caching the ciphers of an epoch keeps the cache derived. -/
theorem KeysDerived.setSlot
    (epoch : Nat) (dir : SecureDatagramDirection)
    (generation : Nat) (written : SlotPair.Position) :
    KeysDerived primitives { session with
      keyCache := session.keyCache.set dir ((session.keyCache.get dir).set written
        (newKeySlot primitives session epoch dir generation)) } := by
  intro other position valid role
  by_cases same : other = dir
  · subst same
    by_cases sameSlot : position = written
    · subst sameSlot
      simp only [ByDirection.get_set, SlotPair.get_set, if_true]
      exact getEncryptor_newKeySlot _ _ _ _ _ _
    · simp only [ByDirection.get_set, SlotPair.get_set, if_true, sameSlot, if_false] at valid ⊢
      exact derived other position valid role
  · simp only [ByDirection.get_set, same, if_false] at valid ⊢
    exact derived other position valid role

/-- Looking a cipher up gives the one of the epoch, cached or not. -/
theorem KeysDerived.getOrCreateEncryptor (epoch : Nat)
    (dir : SecureDatagramDirection) (generation : Nat) (isSend : Bool) :
    (session.getOrCreateEncryptor primitives epoch dir generation isSend).1 =
        session.trafficCipher primitives epoch dir isSend ∧
      (session.getOrCreateEncryptor primitives epoch dir generation isSend).2.KeysDerived
        primitives := by
  simp only [SecureDatagramSession.getOrCreateEncryptor]
  split
  · rename_i position found
    have test := SlotPair.find?_eq_some found
    simp only [Bool.and_eq_true, beq_iff_eq] at test
    refine ⟨?_, derived⟩
    rw [derived dir position test.1.1 isSend, test.1.2]
  · exact ⟨getEncryptor_newKeySlot _ _ _ _ _ _, derived.setSlot epoch dir generation _⟩

omit derived in
theorem pruneKeySlot_cases (sendEpoch : Nat) (rx : SlotPair EpochRxSlot)
    (grace : Option (SlotPair EpochRxSlot)) (slot : EpochKeySlot) :
    pruneKeySlot sendEpoch rx grace slot = slot ∨
      (pruneKeySlot sendEpoch rx grace slot).valid = false := by
  unfold pruneKeySlot
  dsimp only
  split
  · exact .inr rfl
  · exact .inl rfl

theorem KeysDerived.pruneKeyCache (grace : Bool) :
    (session.pruneKeyCache grace).KeysDerived primitives := by
  have pruned : ∀ dir, (session.pruneKeyCache grace).keyCache.get dir =
      (session.keyCache.get dir).map (pruneKeySlot session.sendEpoch (session.rxSlots.get dir)
        (if grace then some (session.syncRxGrace.slots.get dir) else none)) := by
    intro dir
    cases dir <;> rfl
  intro dir position valid role
  rw [pruned, SlotPair.get_map] at valid ⊢
  rcases pruneKeySlot_cases session.sendEpoch (session.rxSlots.get dir)
      (if grace then some (session.syncRxGrace.slots.get dir) else none)
      ((session.keyCache.get dir).get position) with kept | dropped
  · rw [kept] at valid ⊢
    exact derived dir position valid role
  · rw [dropped] at valid
    cases valid

theorem KeysDerived.refreshRx (nowMs : Nat) :
    (session.refreshRx nowMs).2.KeysDerived primitives := by
  obtain ⟨grace, expiresAtMs, opened, _⟩ := session.refreshRx_cases nowMs
  rw [opened]
  exact derived.of_sameKeys ⟨rfl, rfl, rfl⟩ rfl

theorem KeysDerived.commitReplay
    (epoch seq : Nat) (dir : SecureDatagramDirection)
    (nowMs : Nat) : (session.commitReplay epoch seq dir nowMs).2.KeysDerived primitives := by
  have opened := derived.refreshRx nowMs
  simp only [SecureDatagramSession.commitReplay]
  split
  all_goals
    refine KeysDerived.pruneKeyCache ?_ _
    exact opened.of_sameKeys ⟨rfl, rfl, rfl⟩ rfl

/-- What an accepted packet was decrypted with, and that the cache stays derived. -/
theorem KeysDerived.decryptPayload
    (dir : SecureDatagramDirection) (packet : ZCPacket)
    (nowMs : Nat) :
    (session.decryptPayload primitives dir packet nowMs).2.KeysDerived primitives ∧
      ∀ plain, (session.decryptPayload primitives dir packet nowMs).1 = .ok plain →
        ∃ nonce, parseTail packet.payload = some nonce ∧
          (session.trafficCipher primitives nonce.epoch dir false).decrypt primitives packet =
            .ok plain := by
  have opened := derived.refreshRx nowMs
  obtain ⟨grace, expiresAtMs, refreshed, _⟩ := session.refreshRx_cases nowMs
  have same : SameKeys session (session.refreshRx nowMs).2 := by
    rw [refreshed]
    exact ⟨rfl, rfl, rfl⟩
  unfold SecureDatagramSession.decryptPayload
  split
  · exact ⟨derived, nofun⟩
  split
  · exact ⟨derived, nofun⟩
  rename_i nonce parsed
  obtain ⟨cipher, cached⟩ := opened.getOrCreateEncryptor nonce.epoch dir
    (session.refreshRx nowMs).2.sessionGeneration false
  obtain ⟨keys, keyed⟩ := getOrCreateEncryptor_frame primitives (session.refreshRx nowMs).2
    nonce.epoch dir (session.refreshRx nowMs).2.sessionGeneration false
  rw [keyed] at cached
  rcases session.receive_cases primitives dir nonce
      (fun encryptor => encryptor.decrypt primitives packet) nowMs with
    ⟨error, keyCache, invalidated, count, origin, result⟩ | ⟨plain, keyCache, origin, _, opens,
      result⟩
  · rw [result]
    refine ⟨?_, nofun⟩
    rcases origin with rfl | rfl
    · exact opened.of_sameKeys ⟨rfl, rfl, rfl⟩ rfl
    · rw [keyed]
      exact cached.of_sameKeys ⟨rfl, rfl, rfl⟩ rfl
  · rw [result]
    rw [keyed] at origin
    subst origin
    rw [cipher, same.trafficCipher] at opens
    have reset : KeysDerived primitives { (session.refreshRx nowMs).2 with
        keyCache := keyCache
        decryptFailCount := 0 } := cached.of_sameKeys ⟨rfl, rfl, rfl⟩ rfl
    have committed := reset.commitReplay nonce.epoch nonce.seq dir nowMs
    dsimp only
    split
    · refine ⟨committed, ?_⟩
      rintro _ ⟨rfl⟩
      exact ⟨nonce, parsed, opens⟩
    · exact ⟨committed, nofun⟩

/-- What a packet was sealed with, and that the cache stays derived. -/
theorem KeysDerived.encryptPayload
    (dir : SecureDatagramDirection) (packet : ZCPacket)
    (nowMs : Nat) :
    (session.encryptPayload primitives dir packet nowMs).2.KeysDerived primitives ∧
      ∀ sealed, (session.encryptPayload primitives dir packet nowMs).1 = .ok sealed →
        ∃ nonce : NonceParts, (session.trafficCipher primitives nonce.epoch dir
          true).encryptWithNonce primitives packet nonce.bytes = .ok sealed := by
  unfold SecureDatagramSession.encryptPayload
  split
  · exact ⟨derived, nofun⟩
  obtain ⟨epoch, startedMs, packets, _, drawn⟩ := session.nextNonce_cases dir nowMs
  have same : SameKeys session (session.nextNonce dir nowMs).2 := by
    rw [drawn]
    exact ⟨rfl, rfl, rfl⟩
  have counted : (session.nextNonce dir nowMs).2.KeysDerived primitives := by
    refine derived.of_sameKeys same ?_
    rw [drawn]
  obtain ⟨cipher, cached⟩ := counted.getOrCreateEncryptor (session.nextNonce dir nowMs).1.epoch dir
    (session.nextNonce dir nowMs).2.sessionGeneration true
  dsimp only
  rw [cipher, same.trafficCipher]
  split
  · exact ⟨cached.of_sameKeys ⟨rfl, rfl, rfl⟩ rfl, nofun⟩
  · rename_i sealed seals
    refine ⟨cached, ?_⟩
    rintro _ ⟨rfl⟩
    exact ⟨_, seals⟩

end

end SecureDatagramSession

open SecureDatagramSession

/-- The payload is the plaintext sealed under the traffic key that a root key gives for the
direction and the epoch of the nonce in its tail. -/
def SealedUnder (primitives : Primitives) (rootKey : RootKey) (dir : SecureDatagramDirection)
    (plain payload : Bytes) : Prop :=
  ∃ (algorithm : EncryptionAlgorithm) (nonce : SecureDatagramSession.NonceParts) (text tag : Bytes),
    algorithm.isAead = true ∧
    primitives.sealDetached algorithm (algorithm.cipherKey
      (hkdfTrafficKey primitives rootKey nonce.epoch dir)) nonce.bytes plain =
        some (text, tag) ∧
    payload = text ++ AeadTail.asBytes { tag := tag, nonce := nonce.bytes }

/-- The payload opens to the plaintext under the traffic key of the nonce in its tail. -/
def OpensUnder (primitives : Primitives) (rootKey : RootKey) (dir : SecureDatagramDirection)
    (nonce : SecureDatagramSession.NonceParts) (payload plain : Bytes) : Prop :=
  ∃ (algorithm : EncryptionAlgorithm) (tail : AeadTail),
    algorithm.isAead = true ∧ AeadTail.refFromSuffix payload = some tail ∧
    parseTail payload = some nonce ∧
    primitives.openDetached algorithm (algorithm.cipherKey
      (hkdfTrafficKey primitives rootKey nonce.epoch dir)) tail.nonce
      (payload.take (payload.length - AeadTail.size)) tail.tag = some plain

/-- Everything a payload opens to, with the nonce in its tail. -/
def openings (primitives : Primitives) (rootKey : RootKey) (dir : SecureDatagramDirection)
    (payload : Bytes) : List (SecureDatagramSession.NonceParts × Bytes) :=
  match AeadTail.refFromSuffix payload, parseTail payload with
  | some tail, some nonce =>
    [.aesGcm, .aes256Gcm, .chaCha20].filterMap fun algorithm : EncryptionAlgorithm =>
      (primitives.openDetached algorithm (algorithm.cipherKey
        (hkdfTrafficKey primitives rootKey nonce.epoch dir)) tail.nonce
        (payload.take (payload.length - AeadTail.size)) tail.tag).map (nonce, ·)
  | _, _ => []

variable {dir : SecureDatagramDirection}

theorem OpensUnder.mem_openings {primitives : Primitives} {rootKey : RootKey}
    {nonce : SecureDatagramSession.NonceParts}
    {payload plain : Bytes} (opens : OpensUnder primitives rootKey dir nonce payload plain) :
    (nonce, plain) ∈ openings primitives rootKey dir payload := by
  obtain ⟨algorithm, tail, aead, found, parsed, opened⟩ := opens
  simp only [openings, found, parsed, List.mem_filterMap]
  refine ⟨algorithm, ?_, by rw [opened]; rfl⟩
  cases algorithm with
  | xor => cases aead
  | aesGcm | aes256Gcm | chaCha20 => simp

namespace SecureDatagramSession

section

variable {primitives : Primitives} {session : SecureDatagramSession}
    (derived : session.KeysDerived primitives)
include derived

/-- With an AEAD algorithm, a packet that is not flagged leaves the session sealed and flagged, and
a flagged one leaves it as it came. -/
theorem KeysDerived.sealed_of_encryptPayload
    (aead : IsAead session.sendCipherAlgorithm)
    {packet sealed : ZCPacket} {nowMs : Nat}
    (sent : (session.encryptPayload primitives dir packet nowMs).1 = .ok sealed) :
    (packet.header.isEncrypted = true ∧ sealed = packet) ∨
      (packet.header.isEncrypted = false ∧ sealed.header = packet.header.setEncrypted true ∧
        SealedUnder primitives session.rootKey dir packet.payload sealed.payload) := by
  obtain ⟨nonce, seals⟩ := (derived.encryptPayload dir packet nowMs).2 sealed sent
  rcases createEncryptor_of_isAead primitives aead
      (hkdfTrafficKey primitives session.rootKey nonce.epoch dir) with
    ⟨algorithm, isAead, cipher⟩ | ⟨error, cipher⟩
  · simp only [trafficCipher, if_true, cipher, encryptWithNonce,
      encryptAeadWithNonce] at seals
    split at seals
    · rename_i flagged
      cases seals
      exact .inl ⟨flagged, rfl⟩
    rename_i unflagged
    split at seals
    · cases seals
    split at seals
    · cases seals
    rename_i text tag written
    cases seals
    exact .inr ⟨by simpa using unflagged, rfl, algorithm, nonce, text, tag, isAead, written, rfl⟩
  · simp only [trafficCipher, if_true, cipher, encryptWithNonce] at seals
    cases seals

/-- With an AEAD algorithm, a flagged packet is accepted only if it opens under the traffic key of
its nonce, and one that is not flagged is passed on as it came. -/
theorem KeysDerived.opens_of_decryptPayload
    (aead : IsAead session.recvCipherAlgorithm)
    {packet plain : ZCPacket} {nowMs : Nat}
    (accepted : (session.decryptPayload primitives dir packet nowMs).1 = .ok plain) :
    (packet.header.isEncrypted = false ∧ plain = packet) ∨
      (plain.header = packet.header.setEncrypted false ∧
        ∃ nonce, OpensUnder primitives session.rootKey dir nonce packet.payload plain.payload) := by
  obtain ⟨nonce, parsed, opens⟩ := (derived.decryptPayload dir packet nowMs).2 plain accepted
  rcases createEncryptor_of_isAead primitives aead
      (hkdfTrafficKey primitives session.rootKey nonce.epoch dir) with
    ⟨algorithm, isAead, cipher⟩ | ⟨error, cipher⟩
  · simp only [trafficCipher, Bool.false_eq_true, if_false, cipher, decrypt,
      decryptAead] at opens
    split at opens
    · rename_i unflagged
      cases opens
      exact .inl ⟨by simpa using unflagged, rfl⟩
    split at opens
    · cases opens
    rename_i tail found
    split at opens
    · cases opens
    rename_i text opened
    cases opens
    exact .inr ⟨rfl, nonce, algorithm, tail, isAead, found, parsed, opened⟩
  · simp only [trafficCipher, Bool.false_eq_true, if_false, cipher, decrypt] at opens
    cases opens

end

end SecureDatagramSession

end EasyTier.Tunnel
