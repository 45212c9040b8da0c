import EasyTier.Data.BigEndian
import EasyTier.Tunnel.Encrypt
import EasyTier.Tunnel.ReplayWindow

/-! # Secure datagram sessions

The state of one `SecureDatagramSession` and what `encrypt_payload`, `decrypt_payload` and
`sync_root_key` do to it. Calls are taken one at a time, each with the clock value it reads;
`u32` and `u64` fields are natural numbers, reduced where the source wraps or saturates.
-/

namespace EasyTier.Tunnel

open Data Packet

/-- The 32 bytes of a root key, as one word. -/
abbrev RootKey := BitVec 256

inductive SecureDatagramDirection where
  | aToB
  | bToA
  deriving DecidableEq

def SecureDatagramDirection.idx : SecureDatagramDirection → Nat
  | .aToB => 0
  | .bToA => 1

/-- `[T; 2]` indexed by a direction. -/
structure ByDirection (α : Type) where
  aToB : α
  bToA : α
  deriving DecidableEq

namespace ByDirection

variable {α β : Type}

def get (values : ByDirection α) : SecureDatagramDirection → α
  | .aToB => values.aToB
  | .bToA => values.bToA

def set (values : ByDirection α) : SecureDatagramDirection → α → ByDirection α
  | .aToB, value => { values with aToB := value }
  | .bToA, value => { values with bToA := value }

def both (value : α) : ByDirection α := { aToB := value, bToA := value }

def map (f : α → β) (values : ByDirection α) : ByDirection β :=
  { aToB := f values.aToB, bToA := f values.bToA }

@[simp] theorem get_set (values : ByDirection α) (dir other : SecureDatagramDirection)
    (value : α) : (values.set dir value).get other = if other = dir then value else
      values.get other := by
  cases dir <;> cases other <;> rfl

@[simp] theorem get_both (value : α) (dir : SecureDatagramDirection) :
    (both value).get dir = value := by
  cases dir <;> rfl

@[simp] theorem get_map (f : α → β) (values : ByDirection α) (dir : SecureDatagramDirection) :
    (values.map f).get dir = f (values.get dir) := by
  cases dir <;> rfl

end ByDirection

/-- The two slots of one direction. -/
structure SlotPair (α : Type) where
  first : α
  second : α
  deriving DecidableEq

namespace SlotPair

variable {α β : Type}

/-- Which of the two slots. -/
inductive Position where
  | first
  | second
  deriving DecidableEq

def get (slots : SlotPair α) : Position → α
  | .first => slots.first
  | .second => slots.second

def set (slots : SlotPair α) : Position → α → SlotPair α
  | .first, slot => { slots with first := slot }
  | .second, slot => { slots with second := slot }

def both (slot : α) : SlotPair α := { first := slot, second := slot }

def map (f : α → β) (slots : SlotPair α) : SlotPair β :=
  { first := f slots.first, second := f slots.second }

/-- The first slot a test accepts. -/
def find? (test : α → Bool) (slots : SlotPair α) : Option Position :=
  if test slots.first then some .first
  else if test slots.second then some .second
  else none

@[simp] theorem get_set (slots : SlotPair α) (position other : Position) (slot : α) :
    (slots.set position slot).get other = if other = position then slot else
      slots.get other := by
  cases position <;> cases other <;> rfl

@[simp] theorem get_both (slot : α) (position : Position) : (both slot).get position = slot := by
  cases position <;> rfl

@[simp] theorem get_map (f : α → β) (slots : SlotPair α) (position : Position) :
    (slots.map f).get position = f (slots.get position) := by
  cases position <;> rfl

theorem find?_eq_some {test : α → Bool} {slots : SlotPair α} {position : Position}
    (found : slots.find? test = some position) : test (slots.get position) = true := by
  unfold find? at found
  split at found
  · cases found
    assumption
  · split at found
    · cases found
      assumption
    · cases found

end SlotPair

/-- A cached traffic key: the ciphers made from it for the two roles. -/
structure EpochKeySlot where
  epoch : Nat
  generation : Nat
  valid : Bool
  sendCipher : Option Encryptor
  recvCipher : Option Encryptor
  deriving DecidableEq

def EpochKeySlot.default : EpochKeySlot :=
  { epoch := 0, generation := 0, valid := false, sendCipher := none, recvCipher := none }

/-- What was received of one epoch. -/
structure EpochRxSlot where
  epoch : Nat
  window : ReplayWindow256
  lastRxMs : Nat
  valid : Bool
  deriving DecidableEq

namespace EpochRxSlot

/-- `EpochRxSlot::default()`, which is also what `clear` leaves. -/
def default : EpochRxSlot :=
  { epoch := 0, window := .default, lastRxMs := 0, valid := false }

/-- The slot `commit_replay` starts for an epoch it has no slot for. -/
def opened (epoch nowMs : Nat) : EpochRxSlot :=
  { epoch := epoch, window := .default, lastRxMs := nowMs, valid := true }

/-- The slot is in use for the epoch. -/
def holds (slot : EpochRxSlot) (epoch : Nat) : Bool := slot.valid && slot.epoch == epoch

/-- Note the arrival and offer the number to the window. -/
def accept (slot : EpochRxSlot) (seq nowMs : Nat) : Bool × EpochRxSlot :=
  let verdict := slot.window.accept seq
  (verdict.1, { slot with lastRxMs := nowMs, window := verdict.2 })

end EpochRxSlot

abbrev RxSlots := ByDirection (SlotPair EpochRxSlot)

def RxSlots.default : RxSlots := .both (.both .default)

/-- The slots from before a sync, which are kept for a while. -/
structure SyncRxGrace where
  slots : RxSlots
  expiresAtMs : Nat
  valid : Bool
  deriving DecidableEq

namespace SyncRxGrace

/-- `SyncRxGrace::default()`, which is also what `clear` leaves. -/
def default : SyncRxGrace := { slots := RxSlots.default, expiresAtMs := 0, valid := false }

def refresh (slots : RxSlots) (expiresAtMs : Nat) : SyncRxGrace :=
  { slots := slots, expiresAtMs := expiresAtMs, valid := true }

def maybeExpire (grace : SyncRxGrace) (nowMs : Nat) : SyncRxGrace :=
  if grace.valid && decide (grace.expiresAtMs ≤ nowMs) then default else grace

end SyncRxGrace

/-- A session that encrypts datagrams in both directions. -/
structure SecureDatagramSession where
  rootKey : RootKey
  sessionGeneration : Nat
  sendEpoch : Nat
  sendSeq : ByDirection Nat
  sendEpochStartedMs : Nat
  sendPacketsSinceEpoch : Nat
  rxSlots : RxSlots
  keyCache : ByDirection (SlotPair EpochKeySlot)
  syncRxGrace : SyncRxGrace
  syncRxGraceExpiresAtMs : Nat
  sendCipherAlgorithm : String
  recvCipherAlgorithm : String
  invalidated : Bool
  decryptFailCount : Nat
  deriving DecidableEq

/-- The errors of the session's own checks carry the texts of the source. -/
inductive SessionError where
  | message (text : String)
  | cipher (error : EncryptError)
  deriving DecidableEq

variable (session : SecureDatagramSession)

namespace SecureDatagramSession

def evictIdleAfterMs : Nat := 30000

def syncRxGraceAfterMs : Nat := 5000

def rotateAfterPackets : Nat := 1000000

def rotateAfterMs : Nat := 10 * 60 * 1000

def maxAcceptedRxEpochAhead : Nat := 3

def decryptFailThreshold : Nat := 10

/-- `SecureDatagramSession::new`. -/
def new (rootKey : RootKey) (sessionGeneration initialEpoch : Nat)
    (sendCipherAlgorithm recvCipherAlgorithm : String) (nowMs : Nat) : SecureDatagramSession :=
  { rootKey := rootKey
    sessionGeneration := sessionGeneration
    sendEpoch := initialEpoch
    sendSeq := .both 0
    sendEpochStartedMs := nowMs
    sendPacketsSinceEpoch := 0
    rxSlots := RxSlots.default
    keyCache := .both (.both .default)
    syncRxGrace := .default
    syncRxGraceExpiresAtMs := 0
    sendCipherAlgorithm := sendCipherAlgorithm
    recvCipherAlgorithm := recvCipherAlgorithm
    invalidated := false
    decryptFailCount := 0 }

def invalidate : SecureDatagramSession :=
  { session with invalidated := true }

def isValid : Bool := !session.invalidated

/-- The larger of an epoch and the epochs of the slots in use. -/
def maxEpoch (epoch : Nat) (slots : SlotPair EpochRxSlot) : Nat :=
  let withFirst := if slots.first.valid then max epoch slots.first.epoch else epoch
  if slots.second.valid then max withFirst slots.second.epoch else withFirst

/-- `next_sync_epoch`. -/
def nextSyncEpoch : Nat :=
  (maxEpoch (maxEpoch session.sendEpoch session.rxSlots.aToB) session.rxSlots.bToA + 1) % 2 ^ 32

/-- `check_encrypt_algo_same`. -/
def checkEncryptAlgoSame (sendAlgorithm recvAlgorithm : String) :
    Except SessionError Unit :=
  if session.sendCipherAlgorithm ≠ sendAlgorithm ∨ session.recvCipherAlgorithm ≠ recvAlgorithm then
    .error (.message "encrypt algorithm not same")
  else
    .ok ()

/-- `sync_root_key`; both readings of the clock are `nowMs`. -/
def syncRootKey (rootKey : RootKey)
    (sessionGeneration initialEpoch : Nat) (preserveRxGrace : Bool) (nowMs : Nat) :
    SecureDatagramSession :=
  let canPreserveRxGrace := preserveRxGrace && session.rootKey == rootKey
  let expiresAtMs := min (nowMs + syncRxGraceAfterMs) (2 ^ 64 - 1)
  { session with
    rootKey := rootKey
    sessionGeneration := sessionGeneration
    sendEpoch := initialEpoch
    sendSeq := .both 0
    sendEpochStartedMs := nowMs
    sendPacketsSinceEpoch := 0
    syncRxGrace :=
      if canPreserveRxGrace then .refresh session.rxSlots expiresAtMs else .default
    syncRxGraceExpiresAtMs := if canPreserveRxGrace then expiresAtMs else 0
    rxSlots := RxSlots.default
    keyCache := .both (.both .default) }

/-- `hkdf_traffic_key`. -/
def hkdfTrafficKey (primitives : Primitives) (rootKey : RootKey) (epoch : Nat)
    (dir : SecureDatagramDirection) : Bytes :=
  let salt := List.replicate 32 0#8
  let prk := primitives.hmacSha256 salt (BigEndian.encode 32 rootKey.toNat)
  let label := "et-traffic".toList.map fun letter => BitVec.ofNat 8 letter.toNat
  let info := label ++ BigEndian.encode 4 epoch ++ [BitVec.ofNat 8 dir.idx]
  (primitives.hmacSha256 prk (info ++ [1#8])).take 32

/-- The slot `get_or_create_encryptor` builds for an epoch without one. -/
def newKeySlot (primitives : Primitives) (session : SecureDatagramSession) (epoch : Nat)
    (dir : SecureDatagramDirection) (generation : Nat) : EpochKeySlot :=
  let key := hkdfTrafficKey primitives session.rootKey epoch dir
  let key128 := key.take 16
  { epoch := epoch
    generation := generation
    valid := true
    sendCipher := some (createEncryptor primitives session.sendCipherAlgorithm key128 key)
    recvCipher := some (createEncryptor primitives session.recvCipherAlgorithm key128 key) }

/-- `EpochKeySlot::get_encryptor`; a slot in use always has both ciphers. -/
def getEncryptor (slot : EpochKeySlot) (isSend : Bool) : Encryptor :=
  (if isSend then slot.sendCipher else slot.recvCipher).getD
    (.unsupported .encryptionFailed)

/-- `get_or_create_encryptor`. -/
def getOrCreateEncryptor (primitives : Primitives) (session : SecureDatagramSession) (epoch : Nat)
    (dir : SecureDatagramDirection) (generation : Nat) (isSend : Bool) :
    Encryptor × SecureDatagramSession :=
  let slots := session.keyCache.get dir
  match slots.find? fun slot =>
      slot.valid && slot.epoch == epoch && slot.generation == generation with
  | some position => (getEncryptor (slots.get position) isSend, session)
  | none =>
    let slot := newKeySlot primitives session epoch dir generation
    let position : SlotPair.Position :=
      if !slots.first.valid || slots.first.epoch == epoch then .first else .second
    (getEncryptor slot isSend,
      { session with keyCache := session.keyCache.set dir (slots.set position slot) })

/-- `maybe_rotate_epoch`. -/
def maybeRotateEpoch (nowMs : Nat) : SecureDatagramSession :=
  let packets := session.sendPacketsSinceEpoch + 1
  if packets < rotateAfterPackets ∧ nowMs - session.sendEpochStartedMs < rotateAfterMs then
    { session with sendPacketsSinceEpoch := packets }
  else
    { session with
      sendEpoch := (session.sendEpoch + 1) % 2 ^ 32
      sendEpochStartedMs := nowMs
      sendPacketsSinceEpoch := 0 }

/-- The epoch and sequence number of a packet. -/
structure NonceParts where
  epoch : Nat
  seq : Nat
  deriving DecidableEq

/-- The twelve bytes of a nonce. -/
def NonceParts.bytes (parts : NonceParts) : Bytes :=
  BigEndian.encode 4 parts.epoch ++ BigEndian.encode 8 parts.seq

/-- `next_nonce`; a rotation keeps counting the packets of the direction. -/
def nextNonce (dir : SecureDatagramDirection) (nowMs : Nat) :
    NonceParts × SecureDatagramSession :=
  let rotated := session.maybeRotateEpoch nowMs
  let seq := rotated.sendSeq.get dir
  ({ epoch := rotated.sendEpoch, seq := seq },
    { rotated with sendSeq := rotated.sendSeq.set dir ((seq + 1) % 2 ^ 64) })

/-- `parse_tail`, read as epoch and sequence number. -/
def parseTail (payload : Bytes) : Option NonceParts :=
  (AeadTail.refFromSuffix payload).map fun tail =>
    { epoch := BigEndian.decode (tail.nonce.take 4), seq := BigEndian.decode (tail.nonce.drop 4) }

/-- What `evict_old_rx_slots` does to one slot. -/
def evictRxSlot (nowMs : Nat) (slot : EpochRxSlot) : EpochRxSlot :=
  if slot.valid ∧ slot.lastRxMs ≠ 0 ∧ evictIdleAfterMs < nowMs - slot.lastRxMs then .default
  else slot

/-- `evict_old_rx_slots`. -/
def evictOldRxSlots (slots : RxSlots) (nowMs : Nat) : RxSlots :=
  slots.map (SlotPair.map (evictRxSlot nowMs))

/-- `sync_rx_grace_active`. -/
def syncRxGraceActive (nowMs : Nat) :
    Bool × SecureDatagramSession :=
  if session.syncRxGraceExpiresAtMs = 0 then
    (false, session)
  else if nowMs < session.syncRxGraceExpiresAtMs then
    (true, session)
  else
    (false, { session with syncRxGraceExpiresAtMs := 0 })

/-- The opening of `precheck_replay` and `commit_replay`: idle slots are evicted and the grace
slots are expired. The verdict says whether the grace slots take part. -/
def refreshRx (nowMs : Nat) : Bool × SecureDatagramSession :=
  let evicted := { session with rxSlots := evictOldRxSlots session.rxSlots nowMs }
  match evicted.syncRxGraceActive nowMs with
  | (false, inactive) => (false, inactive)
  | (true, active) =>
    let grace := active.syncRxGrace.maybeExpire nowMs
    if grace.valid then
      (true, { active with
        syncRxGrace := { grace with slots := evictOldRxSlots grace.slots nowMs } })
    else
      (false, { active with syncRxGrace := grace, syncRxGraceExpiresAtMs := 0 })

/-- The grace slot that answers for an epoch, if the grace slots take part. -/
def graceSlot? (grace : Bool) (dir : SecureDatagramDirection)
    (epoch : Nat) : Option SlotPair.Position :=
  if grace then (session.syncRxGrace.slots.get dir).find? (·.holds epoch) else none

/-- How far ahead of the known epochs a new one may lie. -/
def maxAllowedEpoch (slots : SlotPair EpochRxSlot) : Nat :=
  min (maxEpoch session.sendEpoch slots + maxAcceptedRxEpochAhead) (2 ^ 32 - 1)

/-- `precheck_replay`. -/
def precheckReplay (epoch seq : Nat)
    (dir : SecureDatagramDirection) (nowMs : Nat) : Bool × SecureDatagramSession :=
  let (grace, session) := session.refreshRx nowMs
  let rx := session.rxSlots.get dir
  let verdict :=
    match session.graceSlot? grace dir epoch with
    | some position => ((session.syncRxGrace.slots.get dir).get position).window.canAccept seq
    | none =>
      if !rx.first.valid then true
      else if rx.first.holds epoch then rx.first.window.canAccept seq
      else if rx.second.holds epoch then rx.second.window.canAccept seq
      else if rx.first.epoch < epoch then decide (epoch ≤ session.maxAllowedEpoch rx)
      else false
  (verdict, session)

/-- The rx-slot branch of `commit_replay`. -/
def commitRxSlots (rx : SlotPair EpochRxSlot) (epoch seq nowMs :
    Nat) : Bool × SlotPair EpochRxSlot :=
  let rx := if rx.first.valid then rx else { rx with first := .opened epoch nowMs }
  if rx.first.holds epoch then
    let verdict := rx.first.accept seq nowMs
    (verdict.1, { rx with first := verdict.2 })
  else if rx.second.holds epoch then
    let verdict := rx.second.accept seq nowMs
    (verdict.1, { rx with second := verdict.2 })
  else if rx.first.epoch < epoch then
    if session.maxAllowedEpoch rx < epoch then
      (false, rx)
    else
      let verdict := (EpochRxSlot.opened epoch nowMs).accept seq nowMs
      (verdict.1, { first := verdict.2, second := rx.first })
  else
    (false, rx)

/-- One cached key under `prune_key_cache`: dropped unless its epoch is still in use. -/
def pruneKeySlot (sendEpoch : Nat) (rx : SlotPair EpochRxSlot)
    (grace : Option (SlotPair EpochRxSlot)) (slot : EpochKeySlot) : EpochKeySlot :=
  let allowed := slot.epoch == sendEpoch || rx.first.holds slot.epoch ||
    rx.second.holds slot.epoch ||
    grace.any fun slots => slots.first.holds slot.epoch || slots.second.holds slot.epoch
  if slot.valid && !allowed then { slot with valid := false } else slot

/-- `prune_key_cache`. -/
def pruneKeyCache (grace : Bool) : SecureDatagramSession :=
  let prune (dir : SecureDatagramDirection) : SlotPair EpochKeySlot :=
    (session.keyCache.get dir).map (pruneKeySlot session.sendEpoch (session.rxSlots.get dir)
      (if grace then some (session.syncRxGrace.slots.get dir) else none))
  { session with keyCache := { aToB := prune .aToB, bToA := prune .bToA } }

/-- `commit_replay`. -/
def commitReplay (epoch seq : Nat)
    (dir : SecureDatagramDirection) (nowMs : Nat) : Bool × SecureDatagramSession :=
  let (grace, session) := session.refreshRx nowMs
  match session.graceSlot? grace dir epoch with
  | some position =>
    let slots := session.syncRxGrace.slots.get dir
    let verdict := (slots.get position).accept seq nowMs
    let committed := { session with
      syncRxGrace := { session.syncRxGrace with
        slots := session.syncRxGrace.slots.set dir (slots.set position verdict.2) } }
    (verdict.1, committed.pruneKeyCache grace)
  | none =>
    let verdict := session.commitRxSlots (session.rxSlots.get dir) epoch seq nowMs
    let committed := { session with rxSlots := session.rxSlots.set dir verdict.2 }
    (verdict.1, committed.pruneKeyCache grace)

/-- `encrypt_payload`. -/
def encryptPayload (primitives : Primitives) (session : SecureDatagramSession)
    (dir : SecureDatagramDirection) (packet : ZCPacket) (nowMs : Nat) :
    Except SessionError ZCPacket × SecureDatagramSession :=
  if !session.isValid then
    (.error (.message "session invalidated"), session)
  else
    let (nonce, session) := session.nextNonce dir nowMs
    let (encryptor, session) := session.getOrCreateEncryptor primitives nonce.epoch dir
      session.sessionGeneration true
    match encryptor.encryptWithNonce primitives packet nonce.bytes with
    | .error error => (.error (.cipher error), session.invalidate)
    | .ok sealed => (.ok sealed, session)

/-- `decrypt_payload` once the tail is read; `decrypt` is what the cipher makes of the packet. -/
def receive {Plain : Type} (primitives : Primitives) (session : SecureDatagramSession)
    (dir : SecureDatagramDirection) (nonce : NonceParts)
    (decrypt : Encryptor → Except EncryptError Plain) (nowMs : Nat) :
    Except SessionError Plain × SecureDatagramSession :=
  let (fresh, session) := session.precheckReplay nonce.epoch nonce.seq dir nowMs
  if !fresh then
    (.error (.message "replay rejected"), session)
  else
    let (encryptor, session) := session.getOrCreateEncryptor primitives nonce.epoch dir
      session.sessionGeneration false
    match decrypt encryptor with
    | .error error =>
      let count := session.decryptFailCount + 1
      let counted := { session with decryptFailCount := count }
      (.error (.cipher error),
        if decryptFailThreshold ≤ count then counted.invalidate else counted)
    | .ok plain =>
      let (accepted, session) := { session with decryptFailCount := 0 }.commitReplay nonce.epoch
        nonce.seq dir nowMs
      if accepted then (.ok plain, session) else (.error (.message "replay rejected"), session)

/-- `decrypt_payload`. -/
def decryptPayload (primitives : Primitives) (session : SecureDatagramSession)
    (dir : SecureDatagramDirection) (packet : ZCPacket) (nowMs : Nat) :
    Except SessionError ZCPacket × SecureDatagramSession :=
  if !session.isValid then
    (.error (.message "session invalidated"), session)
  else
    match parseTail packet.payload with
    | none => (.error (.message "no tail"), session)
    | some nonce =>
      session.receive primitives dir nonce (fun encryptor => encryptor.decrypt primitives packet)
        nowMs

theorem getOrCreateEncryptor_frame (primitives : Primitives) (session : SecureDatagramSession)
    (epoch : Nat) (dir : SecureDatagramDirection) (generation : Nat) (isSend : Bool) :
    ∃ keyCache, (session.getOrCreateEncryptor primitives epoch dir generation isSend).2 =
      { session with keyCache := keyCache } := by
  unfold getOrCreateEncryptor
  dsimp only
  split
  · exact ⟨session.keyCache, rfl⟩
  · exact ⟨_, rfl⟩

/-- A call on a valid session draws one nonce; beyond that it touches only the cached keys and, if
the cipher fails, the validity mark. -/
theorem encryptPayload_frame (primitives : Primitives) {session : SecureDatagramSession}
    (valid : session.isValid = true) (dir : SecureDatagramDirection) (packet : ZCPacket)
    (nowMs : Nat) :
    ∃ keyCache invalidated, (session.encryptPayload primitives dir packet nowMs).2 =
      { (session.nextNonce dir nowMs).2 with
        keyCache := keyCache, invalidated := invalidated } := by
  obtain ⟨keyCache, keyed⟩ := getOrCreateEncryptor_frame primitives (session.nextNonce dir nowMs).2
    (session.nextNonce dir nowMs).1.epoch dir (session.nextNonce dir nowMs).2.sessionGeneration true
  simp only [encryptPayload, valid, Bool.not_true, Bool.false_eq_true, if_false, keyed]
  split
  · exact ⟨keyCache, true, rfl⟩
  · exact ⟨keyCache, _, rfl⟩

/-- Drawing a nonce advances the counter of its direction, in the current epoch or the next. -/
theorem nextNonce_cases (dir : SecureDatagramDirection)
    (nowMs : Nat) :
    ∃ epoch startedMs packets,
      (epoch = session.sendEpoch ∨ epoch = (session.sendEpoch + 1) % 2 ^ 32) ∧
      session.nextNonce dir nowMs =
        ({ epoch := epoch, seq := session.sendSeq.get dir },
          { session with
            sendEpoch := epoch
            sendEpochStartedMs := startedMs
            sendPacketsSinceEpoch := packets
            sendSeq := session.sendSeq.set dir ((session.sendSeq.get dir + 1) % 2 ^ 64) }) := by
  simp only [nextNonce, maybeRotateEpoch]
  split
  · exact ⟨_, _, _, .inl rfl, rfl⟩
  · exact ⟨_, _, _, .inr rfl, rfl⟩

theorem maxEpoch_le {epoch bound : Nat} {slots : SlotPair EpochRxSlot} (base : epoch ≤ bound)
    (held : ∀ position, (slots.get position).valid = true → (slots.get position).epoch ≤ bound) :
    maxEpoch epoch slots ≤ bound := by
  have first := held .first
  have second := held .second
  simp only [SlotPair.get] at first second
  simp only [maxEpoch]
  split <;> split <;> simp_all

/-- The epoch a sync answer names is at most one above the epochs the session knows. -/
theorem nextSyncEpoch_le {session : SecureDatagramSession} {bound : Nat}
    (base : session.sendEpoch ≤ bound)
    (held : ∀ dir position, ((session.rxSlots.get dir).get position).valid = true →
      ((session.rxSlots.get dir).get position).epoch ≤ bound) :
    session.nextSyncEpoch ≤ bound + 1 := by
  have known : maxEpoch (maxEpoch session.sendEpoch session.rxSlots.aToB)
      session.rxSlots.bToA ≤ bound :=
    maxEpoch_le (maxEpoch_le base (held .aToB)) (held .bToA)
  exact (Nat.mod_le _ _).trans (Nat.succ_le_succ known)

end SecureDatagramSession

end EasyTier.Tunnel
