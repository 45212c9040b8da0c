import EasyTier.Semantics.System
import EasyTier.Tunnel.TrafficKeys

/-! # Packets that are turned away

`precheck_replay` and `commit_replay` take one decision twice, before and after the cipher. A
packet that is stopped by the first decision or by the cipher moves only the cached keys, the
failure count and grace slots that had run out; none of them changes what becomes of the packets
after it.
-/

namespace EasyTier.Tunnel

open Data Packet Semantics ReplayWindow256

namespace SecureDatagramSession

variable (session : SecureDatagramSession)

/-! ## The two decisions -/

theorem fst_commitRxSlots (rx : SlotPair EpochRxSlot) (epoch seq nowMs : Nat) :
    (session.commitRxSlots rx epoch seq nowMs).1 =
      if !rx.first.valid then true
      else if rx.first.holds epoch then rx.first.window.canAccept seq
      else if rx.second.holds epoch then rx.second.window.canAccept seq
      else if rx.first.epoch < epoch then decide (epoch ≤ session.maxAllowedEpoch rx)
      else false := by
  have taken := fst_accept_opened epoch seq nowMs
  cases firstValid : rx.first.valid with
  | false =>
    -- the slot opened for the epoch is the one that answers
    have holds : (EpochRxSlot.opened epoch nowMs).holds epoch = true := by
      simp [EpochRxSlot.holds, EpochRxSlot.opened]
    simp [commitRxSlots, firstValid, holds, taken]
  | true =>
    simp only [commitRxSlots, firstValid, if_true, Bool.not_true, Bool.false_eq_true, if_false]
    split
    · exact fst_accept _ _
    split
    · exact fst_accept _ _
    split
    · split
      · rename_i tooFar
        simp [Nat.not_le.mpr tooFar]
      · rename_i near
        rw [taken, decide_eq_true (Nat.not_lt.mp near)]
    · rfl

/-! ## Sessions that decide alike -/

/-- When the grace slots take part. -/
theorem fst_refreshRx (nowMs : Nat) : (session.refreshRx nowMs).1 = true ↔
      nowMs < session.syncRxGraceExpiresAtMs ∧ session.syncRxGrace.valid = true ∧
      nowMs < session.syncRxGrace.expiresAtMs := by
  rw [refreshRx_eq]
  split
  · split
    · simp [*]
    · simp [*]
  · simp [*]

/-- The grace slots have run out by a moment. -/
def GraceOver (fromMs : Nat) (session : SecureDatagramSession) : Prop :=
  session.syncRxGraceExpiresAtMs ≤ fromMs ∨ session.syncRxGrace.valid = false ∨
    session.syncRxGrace.expiresAtMs ≤ fromMs

variable {fromMs nowMs : Nat} {session left right : SecureDatagramSession}

theorem graceOver_iff : GraceOver fromMs session ↔ (session.refreshRx fromMs).1 = false := by
  rw [← Bool.not_eq_true, fst_refreshRx, GraceOver]
  cases session.syncRxGrace.valid with
  | false => simp
  | true =>
    simp only [Bool.true_eq_false, false_or, true_and]
    omega

theorem GraceOver.mono
    (graceOver : GraceOver fromMs session) (later : fromMs ≤ nowMs) : GraceOver nowMs session := by
  rcases graceOver with stopped | invalid | expired
  · exact .inl (stopped.trans later)
  · exact .inr (.inl invalid)
  · exact .inr (.inr (expired.trans later))

/-- Grace slots that have run out are stopped when the state is opened. -/
theorem GraceOver.refreshRx (graceOver : GraceOver nowMs session) :
    (session.refreshRx nowMs).1 = false ∧
      ∃ grace, (session.refreshRx nowMs).2 = { session with
        rxSlots := evictOldRxSlots session.rxSlots nowMs
        syncRxGrace := grace
        syncRxGraceExpiresAtMs := 0 } := by
  have out := graceOver_iff.mp graceOver
  obtain ⟨grace, expiresAtMs, opened, ⟨taking, _⟩ | ⟨_, rfl⟩⟩ := session.refreshRx_cases nowMs
  · rw [out] at taking
    cases taking
  · exact ⟨out, grace, opened⟩

/-- The second session differs from the first only in the cached keys, the failure count and grace
slots that play no part in either from a moment on. -/
def Alike (fromMs : Nat) (left right : SecureDatagramSession) : Prop :=
  ∃ keyCache decryptFailCount grace expiresAtMs,
    right = { left with
      keyCache := keyCache
      decryptFailCount := decryptFailCount
      syncRxGrace := grace
      syncRxGraceExpiresAtMs := expiresAtMs } ∧
    ((grace = left.syncRxGrace ∧ expiresAtMs = left.syncRxGraceExpiresAtMs) ∨
      (GraceOver fromMs left ∧ GraceOver fromMs right))

/-- Alike sessions open the same replay state. -/
theorem Alike.refreshRx (alike : Alike fromMs left right) (later : fromMs ≤ nowMs) :
    (right.refreshRx nowMs).1 = (left.refreshRx nowMs).1 ∧
    Alike fromMs (left.refreshRx nowMs).2 (right.refreshRx nowMs).2 ∧
    ((left.refreshRx nowMs).1 = true →
      (right.refreshRx nowMs).2.syncRxGrace = (left.refreshRx nowMs).2.syncRxGrace ∧
      (right.refreshRx nowMs).2.syncRxGraceExpiresAtMs =
        (left.refreshRx nowMs).2.syncRxGraceExpiresAtMs) := by
  obtain ⟨keyCache, count, grace, expiresAtMs, same,
      ⟨sameGrace, sameExpiry⟩ | ⟨leftOver, rightOver⟩⟩ :=
    alike
  · have opened := refreshRx_with left nowMs keyCache count
    have same : right = { left with keyCache := keyCache, decryptFailCount := count } := by
      rw [same, sameGrace, sameExpiry]
    rw [same, opened]
    exact ⟨rfl, ⟨_, _, _, _, rfl, .inl ⟨rfl, rfl⟩⟩, fun _ => ⟨rfl, rfl⟩⟩
  · obtain ⟨leftOut, leftGrace, leftOpened⟩ := (leftOver.mono later).refreshRx
    obtain ⟨rightOut, rightGrace, rightOpened⟩ := (rightOver.mono later).refreshRx
    rw [leftOut, rightOut, leftOpened, rightOpened, same]
    refine ⟨rfl, ⟨_, _, _, _, rfl, .inr ⟨?_, ?_⟩⟩, nofun⟩
    · exact .inl (Nat.zero_le _)
    · exact .inl (Nat.zero_le _)

theorem graceSlot?_congr {takingPart : Bool}
    (sameGrace : takingPart = true → right.syncRxGrace = left.syncRxGrace)
    (dir : SecureDatagramDirection) (epoch : Nat) :
    right.graceSlot? takingPart dir epoch = left.graceSlot? takingPart dir epoch := by
  cases takingPart with
  | false => rfl
  | true => simp only [graceSlot?, sameGrace rfl]

/-- Only grace slots that take part answer for an epoch. -/
theorem takingPart_of_graceSlot? {takingPart : Bool}
    {dir : SecureDatagramDirection} {epoch : Nat} {position : SlotPair.Position}
    (found : session.graceSlot? takingPart dir epoch = some position) : takingPart = true := by
  cases takingPart with
  | false => cases found
  | true => rfl

section

variable (alike : Alike fromMs left right) (later : fromMs ≤ nowMs) (epoch seq : Nat)
    (dir : SecureDatagramDirection)
include alike later

theorem Alike.precheckReplay :
    (right.precheckReplay epoch seq dir nowMs).1 = (left.precheckReplay epoch seq dir nowMs).1 := by
  obtain ⟨sameFlag, opened, sameGrace⟩ := alike.refreshRx later
  simp only [SecureDatagramSession.precheckReplay, sameFlag]
  generalize (left.refreshRx nowMs).1 = takingPart at sameGrace ⊢
  generalize (left.refreshRx nowMs).2 = left at opened sameGrace ⊢
  generalize (right.refreshRx nowMs).2 = right at opened sameGrace ⊢
  rw [graceSlot?_congr (fun taking => (sameGrace taking).1)]
  cases found : left.graceSlot? takingPart dir epoch with
  | some position =>
    obtain ⟨grace, _⟩ := sameGrace (takingPart_of_graceSlot? found)
    rw [grace]
  | none =>
    obtain ⟨_, _, _, _, rfl, _⟩ := opened
    rfl

theorem Alike.commitReplay :
    (right.commitReplay epoch seq dir nowMs).1 = (left.commitReplay epoch seq dir nowMs).1 ∧
    Alike fromMs (left.commitReplay epoch seq dir nowMs).2
      (right.commitReplay epoch seq dir nowMs).2 := by
  obtain ⟨sameFlag, opened, sameGrace⟩ := alike.refreshRx later
  simp only [SecureDatagramSession.commitReplay, sameFlag]
  generalize (left.refreshRx nowMs).1 = takingPart at sameGrace ⊢
  generalize (left.refreshRx nowMs).2 = left at opened sameGrace ⊢
  generalize (right.refreshRx nowMs).2 = right at opened sameGrace ⊢
  rw [graceSlot?_congr (fun taking => (sameGrace taking).1)]
  cases found : left.graceSlot? takingPart dir epoch with
  | some position =>
    obtain ⟨grace, expiry⟩ := sameGrace (takingPart_of_graceSlot? found)
    obtain ⟨_, _, _, _, rfl, _⟩ := opened
    subst grace expiry
    exact ⟨rfl, _, _, _, _, rfl, .inl ⟨rfl, rfl⟩⟩
  | none =>
    obtain ⟨_, _, _, _, rfl, grace⟩ := opened
    exact ⟨rfl, _, _, _, _, rfl, grace⟩

end

/-! ## Runs of genuine packets -/

end SecureDatagramSession

/-- A packet and the moment it is handed to `decrypt_payload`. -/
structure Arrival where
  dir : SecureDatagramDirection
  packet : ZCPacket
  nowMs : Nat

namespace SecureDatagramSession

/-- The packet opens under the traffic key of its nonce. -/
def Genuine (primitives : Primitives) (session : SecureDatagramSession) (arrival : Arrival) :
    Prop :=
  ∃ nonce plain, parseTail arrival.packet.payload = some nonce ∧
    (session.trafficCipher primitives nonce.epoch arrival.dir false).decrypt primitives
      arrival.packet = .ok plain

def receiveArrival (primitives : Primitives) (session : SecureDatagramSession) (arrival : Arrival) :
    Except SessionError ZCPacket × SecureDatagramSession :=
  session.decryptPayload primitives arrival.dir arrival.packet arrival.nowMs

/-- What becomes of packets that arrive one after another. -/
def outcomes (primitives : Primitives) (session : SecureDatagramSession) :
    List Arrival → List (Except SessionError ZCPacket)
  | [] => []
  | arrival :: later =>
    (session.receiveArrival primitives arrival).1 ::
      outcomes primitives (session.receiveArrival primitives arrival).2 later

theorem sameKeys_receiveArrival (primitives : Primitives) (session : SecureDatagramSession)
    (arrival : Arrival) : SameKeys session (session.receiveArrival primitives arrival).2 := by
  obtain ⟨_, _, _, _, _, _, framed⟩ :=
    (decryptPayload_cases primitives session arrival.dir arrival.packet arrival.nowMs).1
  rw [receiveArrival, framed]
  exact ⟨rfl, rfl, rfl⟩

variable {primitives : Primitives} {arrival : Arrival} {fromMs : Nat}
  {left right session : SecureDatagramSession}

theorem Genuine.of_sameKeys {before after : SecureDatagramSession}
    (genuine : before.Genuine primitives arrival)
    (same : SameKeys before after) : after.Genuine primitives arrival := by
  obtain ⟨nonce, plain, parsed, opens⟩ := genuine
  exact ⟨nonce, plain, parsed, by rw [same.trafficCipher]; exact opens⟩

section

variable (alike : Alike fromMs left right)
include alike

theorem Alike.sameKeys : SameKeys left right := by
  obtain ⟨_, _, _, _, rfl, _⟩ := alike
  exact ⟨rfl, rfl, rfl⟩

theorem Alike.isValid : right.isValid = left.isValid := by
  obtain ⟨_, _, _, _, rfl, _⟩ := alike
  rfl

/-- Other cached keys and another failure count make no difference. -/
theorem Alike.rekeyed
    (leftKeys rightKeys : ByDirection (SlotPair EpochKeySlot))
    (leftCount rightCount : Nat) :
    Alike fromMs { left with keyCache := leftKeys, decryptFailCount := leftCount }
      { right with keyCache := rightKeys, decryptFailCount := rightCount } := by
  obtain ⟨_, _, _, _, rfl, grace⟩ := alike
  exact ⟨_, _, _, _, rfl, grace⟩

omit alike in
/-- A genuine packet that passes the precheck is left to the commit. -/
theorem KeysDerived.receive_genuine
    (derived : session.KeysDerived primitives) {dir : SecureDatagramDirection} {packet : ZCPacket}
    {nonce : NonceParts} {plain : ZCPacket} (nowMs : Nat)
    (opens : (session.trafficCipher primitives nonce.epoch dir false).decrypt primitives packet =
      .ok plain) :
    ∃ keyCache, session.receive primitives dir nonce
        (fun encryptor => encryptor.decrypt primitives packet) nowMs =
      if !(session.precheckReplay nonce.epoch nonce.seq dir nowMs).1 then
        (.error (.message "replay rejected"), (session.refreshRx nowMs).2)
      else
        let committed := { (session.refreshRx nowMs).2 with
          keyCache := keyCache, decryptFailCount := 0 }.commitReplay nonce.epoch nonce.seq dir nowMs
        if committed.1 then (.ok plain, committed.2)
        else (.error (.message "replay rejected"), committed.2) := by
  obtain ⟨_, _, refreshed, _⟩ := session.refreshRx_cases nowMs
  have same : SameKeys session (session.refreshRx nowMs).2 := by
    rw [refreshed]
    exact ⟨rfl, rfl, rfl⟩
  obtain ⟨keyCache, keyed⟩ := getOrCreateEncryptor_frame primitives (session.refreshRx nowMs).2
    nonce.epoch dir (session.refreshRx nowMs).2.sessionGeneration false
  obtain ⟨cipher, _⟩ := (derived.refreshRx nowMs).getOrCreateEncryptor nonce.epoch dir
    (session.refreshRx nowMs).2.sessionGeneration false
  refine ⟨keyCache, ?_⟩
  simp only [receive, snd_precheckReplay, keyed, cipher, same.trafficCipher, opens]

/-- Alike sessions do the same with a genuine packet, and stay alike. -/
theorem Alike.receiveArrival
    (leftDerived : left.KeysDerived primitives) (rightDerived : right.KeysDerived primitives)
    (later : fromMs ≤ arrival.nowMs) (genuine : left.Genuine primitives arrival) :
    (right.receiveArrival primitives arrival).1 = (left.receiveArrival primitives arrival).1 ∧
    Alike fromMs (left.receiveArrival primitives arrival).2
      (right.receiveArrival primitives arrival).2 := by
  obtain ⟨nonce, plain, parsed, opens⟩ := genuine
  simp only [SecureDatagramSession.receiveArrival, decryptPayload, alike.isValid, parsed]
  cases left.isValid with
  | false => exact ⟨rfl, alike⟩
  | true =>
    obtain ⟨leftKeys, leftResult⟩ := leftDerived.receive_genuine arrival.nowMs opens
    obtain ⟨rightKeys, rightResult⟩ := rightDerived.receive_genuine arrival.nowMs
      (by rw [alike.sameKeys.trafficCipher]; exact opens)
    obtain ⟨_, opened, _⟩ := alike.refreshRx later
    obtain ⟨sameVerdict, committed⟩ :=
      (opened.rekeyed leftKeys rightKeys 0 0).commitReplay later nonce.epoch nonce.seq arrival.dir
    simp only [Bool.not_true, Bool.false_eq_true, if_false, leftResult, rightResult,
      alike.precheckReplay later, sameVerdict]
    split
    · exact ⟨rfl, opened⟩
    split
    · exact ⟨rfl, committed⟩
    · exact ⟨rfl, committed⟩

theorem Alike.outcomes
    (leftDerived : left.KeysDerived primitives) (rightDerived : right.KeysDerived primitives)
    {arrivals : List Arrival}
    (genuine : ∀ arrival ∈ arrivals, fromMs ≤ arrival.nowMs ∧ left.Genuine primitives arrival) :
    right.outcomes primitives arrivals = left.outcomes primitives arrivals := by
  induction arrivals generalizing left right with
  | nil => rfl
  | cons arrival arrivals ih =>
    obtain ⟨later, isGenuine⟩ := genuine arrival List.mem_cons_self
    obtain ⟨sameResult, stillAlike⟩ :=
      alike.receiveArrival leftDerived rightDerived later isGenuine
    have same := left.sameKeys_receiveArrival primitives arrival
    simp only [outcomes, sameResult]
    congr 1
    apply ih stillAlike (leftDerived.decryptPayload _ _ _).1 (rightDerived.decryptPayload _ _ _).1
    intro other isLater
    obtain ⟨otherLater, otherGenuine⟩ := genuine other (List.mem_cons_of_mem _ isLater)
    exact ⟨otherLater, otherGenuine.of_sameKeys same⟩

end

/-! ## The packet that is turned away -/

/-- The precheck rejects the packet or the cipher does. -/
def TurnsAway (primitives : Primitives) (session : SecureDatagramSession) (arrival : Arrival) :
    Prop :=
  ∃ nonce, parseTail arrival.packet.payload = some nonce ∧
    ((session.precheckReplay nonce.epoch nonce.seq arrival.dir arrival.nowMs).1 = false ∨
      ∃ error, (session.trafficCipher primitives nonce.epoch arrival.dir false).decrypt primitives
        arrival.packet = .error error)

/-- No slot is evicted when the replay state is opened. -/
def EvictsNothing (session : SecureDatagramSession) (nowMs : Nat) : Prop :=
  evictOldRxSlots session.rxSlots nowMs = session.rxSlots ∧
    ((session.refreshRx nowMs).1 = true →
      evictOldRxSlots session.syncRxGrace.slots nowMs = session.syncRxGrace.slots)

instance (session : SecureDatagramSession) (nowMs : Nat) :
    Decidable (session.EvictsNothing nowMs) :=
  inferInstanceAs (Decidable (_ ∧ _))

theorem EvictsNothing.alike {nowMs : Nat}
    (kept : session.EvictsNothing nowMs) : Alike nowMs session (session.refreshRx nowMs).2 := by
  obtain ⟨rxKept, graceKept⟩ := kept
  obtain ⟨grace, expiresAtMs, opened, ⟨taking, _, rfl, rfl⟩ | ⟨out, rfl⟩⟩ :=
    session.refreshRx_cases nowMs
  · rw [opened, rxKept, graceKept taking]
    exact ⟨_, _, _, _, rfl, .inl ⟨rfl, rfl⟩⟩
  · rw [opened, rxKept]
    exact ⟨_, _, _, _, rfl, .inr ⟨graceOver_iff.mpr out, .inl (Nat.zero_le _)⟩⟩

/-- A packet that is turned away leaves a session that is still valid as good as untouched. -/
theorem TurnsAway.alike (turnsAway : session.TurnsAway primitives arrival)
    (derived : session.KeysDerived primitives) (kept : session.EvictsNothing arrival.nowMs)
    (valid : (session.receiveArrival primitives arrival).2.isValid = true) :
    Alike arrival.nowMs session (session.receiveArrival primitives arrival).2 := by
  obtain ⟨nonce, parsed, refused⟩ := turnsAway
  simp only [receiveArrival, decryptPayload, parsed] at valid ⊢
  split at valid
  · rename_i invalid
    simp only [invalid, if_true]
    exact ⟨_, _, _, _, rfl, .inl ⟨rfl, rfl⟩⟩
  rename_i wasValid
  simp only [wasValid]
  have validBefore : session.isValid = true := by simpa using wasValid
  obtain ⟨_, _, refreshed, _⟩ := session.refreshRx_cases arrival.nowMs
  have same : SameKeys session (session.refreshRx arrival.nowMs).2 := by
    rw [refreshed]
    exact ⟨rfl, rfl, rfl⟩
  have stillValid : (session.refreshRx arrival.nowMs).2.isValid = true := by
    rw [refreshed]
    exact validBefore
  rcases session.receive_cases primitives arrival.dir nonce
      (fun encryptor => encryptor.decrypt primitives arrival.packet) arrival.nowMs with
    ⟨error, keyCache, invalidated, count, _, result⟩ | ⟨plain, _, _, fresh, opens, _⟩
  · rw [result] at valid ⊢
    obtain ⟨_, _, _, _, opened, grace⟩ := kept.alike
    have unmarked : invalidated = (session.refreshRx arrival.nowMs).2.invalidated := by
      simp only [isValid, Bool.not_eq_true'] at valid stillValid
      rw [valid, stillValid]
    rw [unmarked, opened]
    rw [opened] at grace
    exact ⟨_, _, _, _, rfl, grace⟩
  · -- a packet that passed both checks was not turned away
    obtain ⟨cipher, _⟩ := (derived.refreshRx arrival.nowMs).getOrCreateEncryptor nonce.epoch
      arrival.dir (session.refreshRx arrival.nowMs).2.sessionGeneration false
    rcases refused with stale | ⟨error, fails⟩
    · rw [fresh] at stale
      cases stale
    · rw [cipher, same.trafficCipher, fails] at opens
      cases opens

end SecureDatagramSession

/-- The calls that change a session. -/
inductive SessionCall where
  | encryptPayload (dir : SecureDatagramDirection) (packet : ZCPacket) (nowMs : Nat)
  | decryptPayload (dir : SecureDatagramDirection) (packet : ZCPacket) (nowMs : Nat)
  | syncRootKey (rootKey : RootKey) (sessionGeneration initialEpoch : Nat) (preserveRxGrace : Bool)
      (nowMs : Nat)
  | invalidate

namespace SecureDatagramSession

def call (primitives : Primitives) (session : SecureDatagramSession) :
    SessionCall → SecureDatagramSession
  | .encryptPayload dir packet nowMs => (session.encryptPayload primitives dir packet nowMs).2
  | .decryptPayload dir packet nowMs => (session.decryptPayload primitives dir packet nowMs).2
  | .syncRootKey rootKey sessionGeneration initialEpoch preserveRxGrace nowMs =>
    session.syncRootKey rootKey sessionGeneration initialEpoch preserveRxGrace nowMs
  | .invalidate => session.invalidate

/-- The runs of a session from its creation. -/
def system (primitives : Primitives) : System SecureDatagramSession SessionCall where
  initial session := ∃ rootKey sessionGeneration initialEpoch sendAlgorithm recvAlgorithm nowMs,
    session = .new rootKey sessionGeneration initialEpoch sendAlgorithm recvAlgorithm nowMs
  step before label after := after = before.call primitives label

variable {session : SecureDatagramSession} {primitives : Primitives}

theorem KeysDerived.call
    (derived : session.KeysDerived primitives) (made : SessionCall) :
    (session.call primitives made).KeysDerived primitives := by
  cases made with
  | encryptPayload dir packet nowMs => exact (derived.encryptPayload dir packet nowMs).1
  | decryptPayload dir packet nowMs => exact (derived.decryptPayload dir packet nowMs).1
  | syncRootKey => exact keysDerived_of_cleared primitives rfl
  | invalidate => exact derived.of_sameKeys ⟨rfl, rfl, rfl⟩ rfl

theorem keysDerived_of_reachable
    (reached : (system primitives).Reachable session) : session.KeysDerived primitives := by
  refine System.ReachableUnder.invariant (motive := fun session => session.KeysDerived primitives)
    ?_ ?_ reached
  · rintro _ ⟨_, _, _, _, _, _, rfl⟩
    exact keysDerived_of_cleared primitives rfl
  · rintro before label _ derived _ rfl
    exact derived.call label

/-- What happens to the key cache: whole calls, and the parts of a call before and after it looks a
cipher up. -/
inductive CacheStep where
  | call (made : SessionCall)
  | nextNonce (dir : SecureDatagramDirection) (nowMs : Nat)
  | precheckReplay (epoch seq : Nat) (dir : SecureDatagramDirection) (nowMs : Nat)
  | getOrCreateEncryptor (epoch : Nat) (dir : SecureDatagramDirection) (generation : Nat)
      (isSend : Bool)
  | pruneKeyCache (grace : Bool)

def cacheStep (primitives : Primitives) (session : SecureDatagramSession) :
    CacheStep → SecureDatagramSession
  | .call made => session.call primitives made
  | .nextNonce dir nowMs => (session.nextNonce dir nowMs).2
  | .precheckReplay epoch seq dir nowMs => (session.precheckReplay epoch seq dir nowMs).2
  | .getOrCreateEncryptor epoch dir generation isSend =>
    (session.getOrCreateEncryptor primitives epoch dir generation isSend).2
  | .pruneKeyCache grace => session.pruneKeyCache grace

theorem KeysDerived.cacheStep
    (derived : session.KeysDerived primitives) (step : CacheStep) :
    (session.cacheStep primitives step).KeysDerived primitives := by
  cases step with
  | call made => exact derived.call made
  | nextNonce dir nowMs =>
    obtain ⟨epoch, startedMs, packets, _, drawn⟩ := session.nextNonce_cases dir nowMs
    rw [SecureDatagramSession.cacheStep, drawn]
    exact derived.of_sameKeys ⟨rfl, rfl, rfl⟩ rfl
  | precheckReplay epoch seq dir nowMs => exact derived.refreshRx nowMs
  | getOrCreateEncryptor epoch dir generation isSend =>
    exact (derived.getOrCreateEncryptor epoch dir generation isSend).2
  | pruneKeyCache grace => exact derived.pruneKeyCache grace

def cacheSteps (primitives : Primitives) (session : SecureDatagramSession)
    (steps : List CacheStep) : SecureDatagramSession :=
  steps.foldl (cacheStep primitives) session

theorem KeysDerived.cacheSteps
    (derived : session.KeysDerived primitives) (steps : List CacheStep) :
    (session.cacheSteps primitives steps).KeysDerived primitives := by
  induction steps generalizing session with
  | nil => exact derived
  | cons step steps ih => exact ih (derived.cacheStep step)

/-- The key cache is transparent: after every run, a lookup gives the cipher made from the key that
the root key of the moment gives for the epoch and the direction. -/
theorem key_cache_transparent (primitives : Primitives) (rootKey : RootKey)
    (sessionGeneration initialEpoch : Nat) (sendAlgorithm recvAlgorithm : String) (nowMs : Nat)
    (steps : List CacheStep) (epoch : Nat) (dir : SecureDatagramDirection) (generation : Nat)
    (isSend : Bool) :
    (getOrCreateEncryptor primitives (cacheSteps primitives (.new rootKey sessionGeneration
        initialEpoch sendAlgorithm recvAlgorithm nowMs) steps) epoch dir generation isSend).1 =
      trafficCipher primitives (cacheSteps primitives (.new rootKey sessionGeneration
        initialEpoch sendAlgorithm recvAlgorithm nowMs) steps) epoch dir isSend := by
  have created : KeysDerived primitives (.new rootKey sessionGeneration initialEpoch sendAlgorithm
      recvAlgorithm nowMs) := keysDerived_of_cleared primitives rfl
  exact ((created.cacheSteps steps).getOrCreateEncryptor epoch dir generation isSend).1

/-- In every state the commit repeats the verdict of the precheck before it. In every state a
session can reach, a packet that is turned away without an eviction makes no difference to the
genuine packets after it. -/
theorem turned_away_packets_leave_no_trace (primitives : Primitives) :
    (∀ session epoch seq dir nowMs,
      ((precheckReplay session epoch seq dir nowMs).2.commitReplay epoch seq dir nowMs).1 =
        (session.precheckReplay epoch seq dir nowMs).1) ∧
    (∀ session arrival later, (system primitives).Reachable session →
      session.TurnsAway primitives arrival → session.EvictsNothing arrival.nowMs →
      (session.receiveArrival primitives arrival).2.isValid = true →
      (∀ genuine ∈ later, arrival.nowMs ≤ genuine.nowMs ∧ session.Genuine primitives genuine) →
        (session.receiveArrival primitives arrival).2.outcomes primitives later =
          session.outcomes primitives later) := by
  refine ⟨fun session epoch seq dir nowMs => ?_, ?_⟩
  · simp only [commitReplay, precheckReplay, refreshRx_refreshRx]
    cases (session.refreshRx nowMs).2.graceSlot? (session.refreshRx nowMs).1 dir epoch with
    | some position => exact fst_accept _ _
    | none => exact fst_commitRxSlots _ _ epoch seq nowMs
  · intro session arrival later reached turnsAway kept valid genuine
    have derived := keysDerived_of_reachable reached
    have alike := turnsAway.alike derived kept valid
    exact alike.outcomes derived (derived.decryptPayload _ _ _).1 genuine

private def sealedData (seq : Nat) : Arrival where
  dir := .aToB
  packet :=
    { header := { fromPeerId := 1, toPeerId := 2, packetType := PacketType.data.code, flags := 1,
                  forwardCounter := 0, reserved := 0, len := 0 }
      payload := List.replicate 16 0#8 ++ NonceParts.bytes { epoch := 0, seq := seq } }
  nowMs := 1000 + seq

/-- The same packet with a tag that does not belong to it. -/
private def forgedData (seq : Nat) : Arrival :=
  { sealedData seq with
    packet := { (sealedData seq).packet with
      payload := List.replicate 16 1#8 ++ NonceParts.bytes { epoch := 0, seq := seq } } }

private def freshSession : SecureDatagramSession := .new 7 1 0 "aes-gcm" "aes-gcm" 1000

private theorem genuine_sealedData (seq : Nat) (small : seq < 3) :
    freshSession.Genuine .transparent (sealedData seq) := by
  have opens : ∀ seq < 3, parseTail (sealedData seq).packet.payload = some ⟨0, seq⟩ ∧
      ((freshSession.trafficCipher .transparent 0 .aToB false).decrypt .transparent
        (sealedData seq).packet).toBool = true := by decide +kernel
  obtain ⟨parsed, ok⟩ := opens seq small
  cases result : (freshSession.trafficCipher .transparent 0 .aToB false).decrypt .transparent
      (sealedData seq).packet with
  | error => rw [result] at ok; cases ok
  | ok plain => exact ⟨⟨0, seq⟩, plain, parsed, result⟩

theorem forged_packet_leaves_no_trace :
    freshSession.TurnsAway .transparent (forgedData 0) ∧
    ((freshSession.receiveArrival .transparent (forgedData 0)).2.outcomes .transparent
        [sealedData 0, sealedData 1, sealedData 1]).map (·.toBool) = [true, true, false] ∧
    (freshSession.receiveArrival .transparent (forgedData 0)).2.outcomes .transparent
        [sealedData 0, sealedData 1, sealedData 1] =
      freshSession.outcomes .transparent [sealedData 0, sealedData 1, sealedData 1] := by
  have turnsAway : freshSession.TurnsAway .transparent (forgedData 0) := by
    refine ⟨⟨0, 0⟩, by decide +kernel, .inr ⟨.decryptionFailed, ?_⟩⟩
    rfl
  refine ⟨turnsAway, by decide +kernel, ?_⟩
  refine (turned_away_packets_leave_no_trace .transparent).2 freshSession (forgedData 0) _
    (.start ⟨7, 1, 0, _, _, 1000, rfl⟩) turnsAway (by decide +kernel) (by decide +kernel) ?_
  intro genuine member
  simp only [List.mem_cons, List.not_mem_nil, or_false] at member
  rcases member with rfl | rfl | rfl
  · exact ⟨by decide, genuine_sealedData 0 (by decide)⟩
  · exact ⟨by decide, genuine_sealedData 1 (by decide)⟩
  · exact ⟨by decide, genuine_sealedData 1 (by decide)⟩

end SecureDatagramSession

end EasyTier.Tunnel
