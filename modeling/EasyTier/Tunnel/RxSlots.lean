import EasyTier.Tunnel.SecureDatagram

/-! # What receiving does to the replay slots

The window of an epoch lives in one of four places of its direction: two rx slots and, after a
sync, two grace slots. The lemmas say once what each step of `decrypt_payload` can do to these
places; everything proved about received packets goes through them.
-/

namespace EasyTier.Tunnel

open Data Packet EpochRxSlot SlotPair SyncRxGrace

variable (session : SecureDatagramSession)

namespace SecureDatagramSession

/-- The four places of a direction where the window of an epoch can live. -/
inductive Place where
  | rx (position : SlotPair.Position)
  | grace (position : SlotPair.Position)
  deriving DecidableEq

/-- Grace slots are consulted only while both marks are set. -/
def graceLive : Bool :=
  decide (session.syncRxGraceExpiresAtMs ≠ 0) && session.syncRxGrace.valid

/-- The slot at a place; dead grace slots count as empty. -/
def slotAt (dir : SecureDatagramDirection) :
    Place → EpochRxSlot
  | .rx position => (session.rxSlots.get dir).get position
  | .grace position =>
    if session.graceLive then (session.syncRxGrace.slots.get dir).get position else .default

/-- Slots without an end have run out at any clock value, so the zero mark needs no case. -/
theorem refreshRx_eq (nowMs : Nat) : session.refreshRx nowMs =
    if nowMs < session.syncRxGraceExpiresAtMs then
      if session.syncRxGrace.valid = true ∧ nowMs < session.syncRxGrace.expiresAtMs then
        (true, { session with
          rxSlots := evictOldRxSlots session.rxSlots nowMs
          syncRxGrace := { session.syncRxGrace with
            slots := evictOldRxSlots session.syncRxGrace.slots nowMs } })
      else
        (false, { session with
          rxSlots := evictOldRxSlots session.rxSlots nowMs
          syncRxGrace := session.syncRxGrace.maybeExpire nowMs
          syncRxGraceExpiresAtMs := 0 })
    else
      (false, { session with
        rxSlots := evictOldRxSlots session.rxSlots nowMs, syncRxGraceExpiresAtMs := 0 }) := by
  simp only [refreshRx, syncRxGraceActive]
  by_cases stopped : session.syncRxGraceExpiresAtMs = 0
  · simp [stopped]
  by_cases before : nowMs < session.syncRxGraceExpiresAtMs
  · cases valid : session.syncRxGrace.valid with
    | false => simp [stopped, before, maybeExpire, valid]
    | true =>
      by_cases later : nowMs < session.syncRxGrace.expiresAtMs
      · simp [stopped, before, maybeExpire, valid, Nat.not_le.mpr later, later]
      · simp [stopped, before, maybeExpire, valid, Nat.not_lt.mp later, later, SyncRxGrace.default]
  · simp [stopped, before]

/-- Opening the replay state evicts idle slots and keeps or kills the grace slots. -/
theorem refreshRx_cases (nowMs : Nat) :
    ∃ grace expiresAtMs,
      (session.refreshRx nowMs).2 = { session with
        rxSlots := evictOldRxSlots session.rxSlots nowMs
        syncRxGrace := grace
        syncRxGraceExpiresAtMs := expiresAtMs } ∧
      (((session.refreshRx nowMs).1 = true ∧ session.graceLive = true ∧
          expiresAtMs = session.syncRxGraceExpiresAtMs ∧
          grace = { session.syncRxGrace with
            slots := evictOldRxSlots session.syncRxGrace.slots nowMs }) ∨
        ((session.refreshRx nowMs).1 = false ∧ expiresAtMs = 0)) := by
  rw [refreshRx_eq]
  split
  · rename_i before
    have marked : session.syncRxGraceExpiresAtMs ≠ 0 := Nat.ne_of_gt (Nat.zero_lt_of_lt before)
    split
    · rename_i taking
      exact ⟨_, _, rfl, .inl ⟨rfl, by simp [graceLive, marked, taking.1], rfl, rfl⟩⟩
    · exact ⟨_, _, rfl, .inr ⟨rfl, rfl⟩⟩
  · exact ⟨session.syncRxGrace, _, rfl, .inr ⟨rfl, rfl⟩⟩

theorem evictRxSlot_cases (nowMs : Nat) (slot : EpochRxSlot) :
    evictRxSlot nowMs slot = slot ∨ evictRxSlot nowMs slot = .default := by
  unfold evictRxSlot
  split
  · exact .inr rfl
  · exact .inl rfl

/-- Opening the replay state can only forget slots. -/
theorem slotAt_refreshRx (nowMs : Nat)
    (dir : SecureDatagramDirection) (place : Place) :
    (session.refreshRx nowMs).2.slotAt dir place = session.slotAt dir place ∨
      (session.refreshRx nowMs).2.slotAt dir place = .default := by
  obtain ⟨grace, expiresAtMs, opened, kept⟩ := session.refreshRx_cases nowMs
  rw [opened]
  cases place with
  | rx position =>
    simpa [slotAt, evictOldRxSlots] using evictRxSlot_cases nowMs _
  | grace position =>
    rcases kept with ⟨_, live, sameExpiry, sameGrace⟩ | ⟨_, stopped⟩
    · have stillLive : decide (session.syncRxGraceExpiresAtMs ≠ 0) = true ∧
          session.syncRxGrace.valid = true := by
        simpa [graceLive] using live
      simp only [slotAt, sameExpiry, sameGrace, graceLive, stillLive.1, stillLive.2,
        Bool.and_self, if_true, evictOldRxSlots, ByDirection.get_map, get_map]
      exact evictRxSlot_cases nowMs _
    · simp [slotAt, graceLive, stopped]

/-- Whether the grace slots take part is whether they are live once the state is opened. -/
theorem graceLive_refreshRx (nowMs : Nat) :
    (session.refreshRx nowMs).2.graceLive = (session.refreshRx nowMs).1 := by
  obtain ⟨grace, expiresAtMs, opened, ⟨taking, live, sameExpiry, sameGrace⟩ | ⟨out, stopped⟩⟩ :=
    session.refreshRx_cases nowMs
  · rw [opened, taking, sameExpiry, sameGrace]
    exact live
  · rw [opened, out]
    simp [graceLive, stopped]

theorem graceSlot?_eq_some {session : SecureDatagramSession} {dir : SecureDatagramDirection}
    {epoch : Nat} {position : SlotPair.Position}
    (found : session.graceSlot? session.graceLive dir epoch = some position) :
    (session.slotAt dir (.grace position)).holds epoch = true ∧ session.graceLive = true := by
  unfold graceSlot? at found
  split at found
  · rename_i live
    simpa [slotAt, live] using find?_eq_some found
  · cases found

theorem evictRxSlot_evictRxSlot (nowMs : Nat) (slot : EpochRxSlot) :
    evictRxSlot nowMs (evictRxSlot nowMs slot) = evictRxSlot nowMs slot := by
  rcases evictRxSlot_cases nowMs slot with kept | evicted
  · rw [kept, kept]
  · rw [evicted]
    simp [evictRxSlot, EpochRxSlot.default]

theorem evictOldRxSlots_evictOldRxSlots (slots : RxSlots) (nowMs : Nat) :
    evictOldRxSlots (evictOldRxSlots slots nowMs) nowMs = evictOldRxSlots slots nowMs := by
  simp [evictOldRxSlots, ByDirection.map, map, evictRxSlot_evictRxSlot]

/-- Opening the replay state does not depend on the fields it leaves alone. -/
theorem refreshRx_with (nowMs : Nat)
    (keyCache : ByDirection (SlotPair EpochKeySlot)) (decryptFailCount : Nat) :
    ({ session with keyCache := keyCache, decryptFailCount := decryptFailCount } :
      SecureDatagramSession).refreshRx nowMs =
    ((session.refreshRx nowMs).1, { (session.refreshRx nowMs).2 with
      keyCache := keyCache, decryptFailCount := decryptFailCount }) := by
  simp only [refreshRx_eq]
  split
  · split
    · rfl
    · rfl
  · rfl

/-- `commit_replay` opens the state a second time at the same clock value and changes nothing. -/
theorem refreshRx_refreshRx (nowMs : Nat) :
    (session.refreshRx nowMs).2.refreshRx nowMs = session.refreshRx nowMs := by
  simp only [refreshRx_eq]
  split
  · split
    · simp [*, evictOldRxSlots_evictOldRxSlots]
    · simp [evictOldRxSlots_evictOldRxSlots]
  · simp [evictOldRxSlots_evictOldRxSlots]

variable {nowMs : Nat}

/-- A slot in use still stands for what it stood for. -/
def Keeps (before after : EpochRxSlot) : Prop :=
  after.valid = true →
    before.valid = true ∧ after.epoch = before.epoch ∧ after.window = before.window

/-- The session may have forgotten slots but has not changed what a slot stands for. -/
def Forgets (before after : SecureDatagramSession) : Prop :=
  ∀ dir place, Keeps (before.slotAt dir place) (after.slotAt dir place)

theorem Keeps.refl (slot : EpochRxSlot) : Keeps slot slot := fun valid => ⟨valid, rfl, rfl⟩

theorem Keeps.default (slot : EpochRxSlot) : Keeps slot .default := by
  intro valid
  cases valid

theorem Keeps.trans {first second third : EpochRxSlot} (left : Keeps first second)
    (right : Keeps second third) : Keeps first third := by
  intro valid
  obtain ⟨secondValid, epoch, window⟩ := right valid
  obtain ⟨firstValid, epoch', window'⟩ := left secondValid
  exact ⟨firstValid, epoch.trans epoch', window.trans window'⟩

theorem Forgets.refl : Forgets session session :=
  fun _ _ => Keeps.refl _

theorem Forgets.trans {first second third : SecureDatagramSession} (left : Forgets first second)
    (right : Forgets second third) : Forgets first third :=
  fun dir place => (left dir place).trans (right dir place)

theorem forgets_refreshRx (nowMs : Nat) :
    Forgets session (session.refreshRx nowMs).2 := by
  intro dir place
  rcases session.slotAt_refreshRx nowMs dir place with same | empty
  · rw [same]
    exact Keeps.refl _
  · rw [empty]
    exact Keeps.default _

/-- Slot 0 is in use, and the rx slots know the epoch or have moved past it. -/
def rxAnswersFor (rx : SlotPair EpochRxSlot) (epoch : Nat) : Bool :=
  rx.first.valid &&
    (rx.first.holds epoch || rx.second.holds epoch || decide (epoch < rx.first.epoch))

/-- A live slot decides about the epoch, so that no new slot is opened for it. -/
def answersFor (dir : SecureDatagramDirection)
    (epoch : Nat) : Bool :=
  (session.graceSlot? session.graceLive dir epoch).isSome ||
    rxAnswersFor (session.rxSlots.get dir) epoch

theorem fst_accept_opened (epoch seq nowMs : Nat) :
    ((opened epoch nowMs).accept seq nowMs).1 = true := by
  simp [accept, opened, ReplayWindow256.canAccept, ReplayWindow256.default]

theorem keeps_accept_of_refused {slot : EpochRxSlot} {seq : Nat}
    (refused : (slot.accept seq nowMs).1 = false) : Keeps slot (slot.accept seq nowMs).2 := by
  intro valid
  exact ⟨valid, rfl, ReplayWindow256.snd_accept_of_refused refused⟩

/-- What the rx slots do with a number: refuse it, take it in the slot of its epoch, or open a
slot for an epoch none of them answers for. -/
theorem commitRxSlots_cases (rx : SlotPair EpochRxSlot)
    (epoch seq nowMs : Nat) :
    ((session.commitRxSlots rx epoch seq nowMs).1 = false ∧
      ∀ position, Keeps (rx.get position)
        ((session.commitRxSlots rx epoch seq nowMs).2.get position)) ∨
    (∃ position, (rx.get position).holds epoch = true ∧
      ((rx.get position).accept seq nowMs).1 = true ∧
      session.commitRxSlots rx epoch seq nowMs =
        (true, rx.set position ((rx.get position).accept seq nowMs).2)) ∨
    (rxAnswersFor rx epoch = false ∧ ∃ moved, session.commitRxSlots rx epoch seq nowMs =
      (true, { first := ((opened epoch nowMs).accept seq nowMs).2,
               second := rx.get moved })) := by
  cases firstValid : rx.first.valid with
  | false =>
    -- slot 0 is empty, so it is opened whatever slot 1 holds
    right; right
    refine ⟨by simp [rxAnswersFor, firstValid], .second, ?_⟩
    have taken := fst_accept_opened epoch seq nowMs
    have holds : (opened epoch nowMs).holds epoch = true := by
      simp [holds, opened]
    simp [commitRxSlots, firstValid, holds, taken, SlotPair.get]
  | true =>
    simp only [commitRxSlots, firstValid, if_true]
    cases firstHolds : rx.first.holds epoch with
    | true =>
      cases taken : (rx.first.accept seq nowMs).1 with
      | false =>
        left
        refine ⟨by simp, fun position => ?_⟩
        cases position with
        | first => simpa [SlotPair.get] using keeps_accept_of_refused taken
        | second => exact Keeps.refl _
      | true =>
        right; left
        exact ⟨.first, firstHolds, taken, by simp [SlotPair.set, SlotPair.get]⟩
    | false =>
      cases secondHolds : rx.second.holds epoch with
      | true =>
        cases taken : (rx.second.accept seq nowMs).1 with
        | false =>
          left
          refine ⟨by simp, fun position => ?_⟩
          cases position with
          | first => exact Keeps.refl _
          | second => simpa [SlotPair.get] using keeps_accept_of_refused taken
        | true =>
          right; left
          exact ⟨.second, secondHolds, taken, by simp [SlotPair.set, SlotPair.get]⟩
      | false =>
        by_cases newer : rx.first.epoch < epoch
        · by_cases tooFar : session.maxAllowedEpoch rx < epoch
          · simp [newer, tooFar, Keeps.refl]
          · right; right
            have notOlder : ¬ epoch < rx.first.epoch := by omega
            refine ⟨by simp [rxAnswersFor, firstHolds, secondHolds, notOlder], .first, ?_⟩
            simp [newer, tooFar, fst_accept_opened, SlotPair.get]
        · simp [newer, Keeps.refl]

@[simp] theorem slotAt_pruneKeyCache (grace : Bool)
    (dir : SecureDatagramDirection) (place : Place) :
    (session.pruneKeyCache grace).slotAt dir place = session.slotAt dir place := by
  cases place <;> rfl

theorem slotAt_setRx (written : SecureDatagramDirection)
    (rx : SlotPair EpochRxSlot) (dir : SecureDatagramDirection) (place : Place) :
    ({ session with rxSlots := session.rxSlots.set written rx } : SecureDatagramSession).slotAt
      dir place =
    match place with
    | .rx position => if dir = written then rx.get position else session.slotAt dir place
    | .grace _ => session.slotAt dir place := by
  cases place with
  | rx position =>
    simp only [slotAt, ByDirection.get_set]
    split <;> rfl
  | grace position => rfl

theorem slotAt_setGrace {session : SecureDatagramSession} (live : session.graceLive = true)
    (written : SecureDatagramDirection) (position : SlotPair.Position) (slot : EpochRxSlot)
    (dir : SecureDatagramDirection) (place : Place) :
    ({ session with syncRxGrace := { session.syncRxGrace with
        slots := session.syncRxGrace.slots.set written
          ((session.syncRxGrace.slots.get written).set position slot) } } :
      SecureDatagramSession).slotAt dir place =
    if dir = written ∧ place = .grace position then slot else session.slotAt dir place := by
  have stillLive : ({ session with syncRxGrace := { session.syncRxGrace with
      slots := session.syncRxGrace.slots.set written
        ((session.syncRxGrace.slots.get written).set position slot) } } :
      SecureDatagramSession).graceLive = true := live
  cases place with
  | rx other => simp [slotAt]
  | grace other =>
    simp only [slotAt, stillLive, live, if_true, ByDirection.get_set, Place.grace.injEq]
    by_cases sameDir : dir = written
    · subst sameDir
      simp only [if_true, get_set, true_and]
    · simp [sameDir]

/-- How an accepted number changes the places of an opened session: in the live slot of its
epoch, or in a slot opened for it while the slot at `moved` takes the second place. -/
inductive Accepts (opened after : SecureDatagramSession) (dir : SecureDatagramDirection)
    (epoch seq nowMs : Nat) : Prop
  | inPlace (place : Place) (holds : (opened.slotAt dir place).holds epoch = true)
      (taken : ((opened.slotAt dir place).accept seq nowMs).1 = true)
      (slots : ∀ other otherPlace, after.slotAt other otherPlace =
        if other = dir ∧ otherPlace = place then ((opened.slotAt dir place).accept seq nowMs).2
        else opened.slotAt other otherPlace)
  | opening (unanswered : opened.answersFor dir epoch = false) (moved : SlotPair.Position)
      (slots : ∀ other otherPlace, after.slotAt other otherPlace =
        if other = dir ∧ otherPlace = .rx .first then
          ((EpochRxSlot.opened epoch nowMs).accept seq nowMs).2
        else if other = dir ∧ otherPlace = .rx .second then opened.slotAt dir (.rx moved)
        else opened.slotAt other otherPlace)

/-- What `commit_replay` does to the places of a session, once the state is opened. -/
theorem commitReplay_cases (epoch seq : Nat)
    (dir : SecureDatagramDirection) (nowMs : Nat) :
    ((session.commitReplay epoch seq dir nowMs).1 = false ∧
      Forgets (session.refreshRx nowMs).2 (session.commitReplay epoch seq dir nowMs).2) ∨
    ((session.commitReplay epoch seq dir nowMs).1 = true ∧
      Accepts (session.refreshRx nowMs).2 (session.commitReplay epoch seq dir nowMs).2 dir
        epoch seq nowMs) := by
  simp only [commitReplay, ← session.graceLive_refreshRx nowMs]
  generalize (session.refreshRx nowMs).2 = opened
  cases found : opened.graceSlot? opened.graceLive dir epoch with
  | some position =>
    obtain ⟨holds, live⟩ := graceSlot?_eq_some found
    have atPlace : opened.slotAt dir (.grace position) =
        (opened.syncRxGrace.slots.get dir).get position := by simp [slotAt, live]
    simp only [← atPlace]
    cases taken : ((opened.slotAt dir (.grace position)).accept seq nowMs).1 with
    | false =>
      refine .inl ⟨rfl, fun other place => ?_⟩
      rw [slotAt_pruneKeyCache, slotAt_setGrace live]
      split
      · rename_i here
        rw [here.1, here.2]
        exact keeps_accept_of_refused taken
      · exact Keeps.refl _
    | true =>
      refine .inr ⟨rfl, .inPlace (.grace position) holds taken fun other place => ?_⟩
      rw [slotAt_pruneKeyCache, slotAt_setGrace live]
  | none =>
    rcases opened.commitRxSlots_cases (opened.rxSlots.get dir) epoch seq nowMs with
      ⟨refused, keeps⟩ | ⟨position, holds, taken, result⟩ | ⟨unanswered, moved, result⟩
    · refine .inl ⟨refused, fun other place => ?_⟩
      rw [slotAt_pruneKeyCache, slotAt_setRx]
      cases place with
      | grace position => exact Keeps.refl _
      | rx position =>
        by_cases sameDir : other = dir
        · subst sameDir
          simpa [slotAt] using keeps position
        · simpa [sameDir] using Keeps.refl _
    · refine .inr ⟨by rw [result], .inPlace (.rx position) holds taken fun other place => ?_⟩
      rw [slotAt_pruneKeyCache, slotAt_setRx, result]
      cases place with
      | grace position => simp
      | rx otherPosition =>
        by_cases sameDir : other = dir
        · subst sameDir
          simp only [if_true, get_set, Place.rx.injEq, true_and]
          split <;> rfl
        · simp [sameDir]
    · refine .inr ⟨by rw [result], .opening ?_ moved fun other place => ?_⟩
      · simp [answersFor, found, unanswered]
      · rw [slotAt_pruneKeyCache, slotAt_setRx, result]
        cases place with
        | grace position => simp
        | rx otherPosition =>
          by_cases sameDir : other = dir
          · cases otherPosition <;> simp [SlotPair.get, slotAt]
          · simp [sameDir]

@[simp] theorem snd_precheckReplay (epoch seq : Nat)
    (dir : SecureDatagramDirection) (nowMs : Nat) :
    (session.precheckReplay epoch seq dir nowMs).2 = (session.refreshRx nowMs).2 := rfl

/-- A call stops before the commit, with only counters and cached keys moved since the state was
opened, or the packet passed the precheck and the cipher and the commit decides. -/
theorem receive_cases {Plain : Type} (primitives : Primitives) (session : SecureDatagramSession)
    (dir : SecureDatagramDirection) (nonce : NonceParts)
    (decrypt : Encryptor → Except EncryptError Plain) (nowMs : Nat) :
    (∃ error keyCache invalidated decryptFailCount,
      (keyCache = (session.refreshRx nowMs).2.keyCache ∨
        keyCache = (getOrCreateEncryptor primitives (session.refreshRx nowMs).2 nonce.epoch dir
          (session.refreshRx nowMs).2.sessionGeneration false).2.keyCache) ∧
      session.receive primitives dir nonce decrypt nowMs =
        (.error error, { (session.refreshRx nowMs).2 with
          keyCache := keyCache
          invalidated := invalidated
          decryptFailCount := decryptFailCount })) ∨
    (∃ plain keyCache,
      keyCache = (getOrCreateEncryptor primitives (session.refreshRx nowMs).2 nonce.epoch dir
        (session.refreshRx nowMs).2.sessionGeneration false).2.keyCache ∧
      (session.precheckReplay nonce.epoch nonce.seq dir nowMs).1 = true ∧
      decrypt (getOrCreateEncryptor primitives (session.refreshRx nowMs).2 nonce.epoch dir
        (session.refreshRx nowMs).2.sessionGeneration false).1 = .ok plain ∧
      session.receive primitives dir nonce decrypt nowMs =
        let committed := { (session.refreshRx nowMs).2 with
          keyCache := keyCache, decryptFailCount := 0 }.commitReplay nonce.epoch nonce.seq dir nowMs
        if committed.1 then (.ok plain, committed.2)
        else (.error (.message "replay rejected"), committed.2)) := by
  obtain ⟨keyCache, keyed⟩ := getOrCreateEncryptor_frame primitives (session.refreshRx nowMs).2
    nonce.epoch dir (session.refreshRx nowMs).2.sessionGeneration false
  simp only [receive, snd_precheckReplay, keyed]
  generalize (session.refreshRx nowMs).2 = opened
  cases fresh : (session.precheckReplay nonce.epoch nonce.seq dir nowMs).1 with
  | false => exact .inl ⟨_, _, _, _, .inl rfl, rfl⟩
  | true =>
    simp only [Bool.not_true, Bool.false_eq_true, if_false]
    cases opens : decrypt (opened.getOrCreateEncryptor primitives nonce.epoch dir
        opened.sessionGeneration false).1 with
    | error error =>
      left
      by_cases threshold : decryptFailThreshold ≤ opened.decryptFailCount + 1
      · simp only [threshold, if_true]
        exact ⟨_, _, _, _, .inr rfl, rfl⟩
      · simp only [threshold, if_false]
        exact ⟨_, _, _, _, .inr rfl, rfl⟩
    | ok plain => exact .inr ⟨plain, keyCache, rfl, trivial, rfl, rfl⟩

theorem commitReplay_frame (epoch seq : Nat)
    (dir : SecureDatagramDirection) (nowMs : Nat) :
    ∃ rxSlots keyCache grace, (session.commitReplay epoch seq dir nowMs).2 =
      { (session.refreshRx nowMs).2 with
        rxSlots := rxSlots, keyCache := keyCache, syncRxGrace := grace } := by
  simp only [commitReplay]
  split
  · exact ⟨_, _, _, rfl⟩
  · exact ⟨_, _, _, rfl⟩

section

variable (primitives : Primitives) (session : SecureDatagramSession) (dir : SecureDatagramDirection)
    (packet : ZCPacket) (nowMs : Nat)

/-- Receiving changes the replay state, the cached keys and the failure marks, and nothing a sender
reads. A call either fails and at most forgets slots, or commits the number of the packet. -/
theorem decryptPayload_cases :
    (∃ rxSlots keyCache grace expiresAtMs invalidated decryptFailCount,
      (session.decryptPayload primitives dir packet nowMs).2 =
        { session with
          rxSlots := rxSlots
          keyCache := keyCache
          syncRxGrace := grace
          syncRxGraceExpiresAtMs := expiresAtMs
          invalidated := invalidated
          decryptFailCount := decryptFailCount }) ∧
    ((∃ error, (session.decryptPayload primitives dir packet nowMs).1 = .error error ∧
      Forgets session (session.decryptPayload primitives dir packet nowMs).2) ∨
    ∃ plain nonce, (session.decryptPayload primitives dir packet nowMs).1 = .ok plain ∧
      parseTail packet.payload = some nonce ∧
      Accepts (session.refreshRx nowMs).2 (session.decryptPayload primitives dir packet nowMs).2
        dir nonce.epoch nonce.seq nowMs) := by
  obtain ⟨grace, expiresAtMs, opened, _⟩ := session.refreshRx_cases nowMs
  unfold decryptPayload
  split
  · exact ⟨⟨_, _, _, _, _, _, rfl⟩, .inl ⟨_, rfl, Forgets.refl _⟩⟩
  split
  · exact ⟨⟨_, _, _, _, _, _, rfl⟩, .inl ⟨_, rfl, Forgets.refl _⟩⟩
  rename_i nonce parsed
  have forgets := session.forgets_refreshRx nowMs
  rcases session.receive_cases primitives dir nonce
      (fun encryptor => encryptor.decrypt primitives packet) nowMs with
    ⟨error, keyCache, invalidated, count, _, result⟩ | ⟨plain, keyCache, _, _, _, result⟩
  · rw [result]
    refine ⟨?_, .inl ⟨error, rfl, forgets⟩⟩
    rw [opened]
    exact ⟨_, _, _, _, _, _, rfl⟩
  · rw [result]
    -- the commit opens the state once more, which changes nothing
    have reopened := refreshRx_with (session.refreshRx nowMs).2 nowMs keyCache 0
    rw [refreshRx_refreshRx] at reopened
    have committed := commitReplay_cases { (session.refreshRx nowMs).2 with
      keyCache := keyCache, decryptFailCount := 0 } nonce.epoch nonce.seq dir nowMs
    obtain ⟨rxSlots, keys, grace', written⟩ := commitReplay_frame { (session.refreshRx nowMs).2 with
      keyCache := keyCache, decryptFailCount := 0 } nonce.epoch nonce.seq dir nowMs
    rw [reopened] at committed written
    rcases committed with ⟨refused, forgot⟩ | ⟨taken, accepts⟩
    · simp only [refused, Bool.false_eq_true, if_false]
      refine ⟨⟨rxSlots, keys, grace', expiresAtMs, session.invalidated, 0, ?_⟩,
        .inl ⟨_, rfl, forgets.trans forgot⟩⟩
      rw [written, opened]
    · simp only [taken, if_true]
      refine ⟨⟨rxSlots, keys, grace', expiresAtMs, session.invalidated, 0, ?_⟩,
        .inr ⟨plain, nonce, rfl, parsed, ?_⟩⟩
      · rw [written, opened]
      cases accepts with
      | inPlace place holds taken slots => exact .inPlace place holds taken slots
      | opening unanswered moved slots => exact .opening unanswered moved slots

/-- After a call, an rx slot in use serves an epoch an rx slot served before, or the epoch of the
packet just accepted. -/
theorem rxEpochs_decryptPayload
    (other : SecureDatagramDirection) (position : SlotPair.Position)
    (valid : ((session.decryptPayload primitives dir packet nowMs).2.slotAt other
      (.rx position)).valid = true) :
    (∃ origin, (session.slotAt other (.rx origin)).valid = true ∧
      ((session.decryptPayload primitives dir packet nowMs).2.slotAt other (.rx position)).epoch =
        (session.slotAt other (.rx origin)).epoch) ∨
    (∃ plain nonce, (session.decryptPayload primitives dir packet nowMs).1 = .ok plain ∧
      parseTail packet.payload = some nonce ∧
      ((session.decryptPayload primitives dir packet nowMs).2.slotAt other (.rx position)).epoch =
        nonce.epoch) := by
  have opened := session.forgets_refreshRx nowMs
  have before : ∀ origin, ((session.refreshRx nowMs).2.slotAt other (.rx origin)).valid = true →
      (session.slotAt other (.rx origin)).valid = true ∧
        ((session.refreshRx nowMs).2.slotAt other (.rx origin)).epoch =
          (session.slotAt other (.rx origin)).epoch := by
    intro origin originValid
    obtain ⟨beforeValid, epoch, _⟩ := opened other (.rx origin) originValid
    exact ⟨beforeValid, epoch⟩
  rcases (session.decryptPayload_cases primitives dir packet nowMs).2 with
    ⟨_, _, forgets⟩ | ⟨plain, nonce, accepted, parsed, accepts⟩
  · obtain ⟨beforeValid, epoch, _⟩ := forgets other (.rx position) valid
    exact .inl ⟨position, beforeValid, epoch⟩
  · cases accepts with
    | inPlace place holds taken slots =>
      rw [slots] at valid ⊢
      left
      split at valid
      · rename_i here
        obtain ⟨rfl, rfl⟩ := here
        obtain ⟨beforeValid, epoch⟩ := before position valid
        exact ⟨position, beforeValid, by simpa [accept] using epoch⟩
      · rename_i elsewhere
        rw [if_neg elsewhere]
        exact ⟨position, before position valid⟩
    | opening unanswered moved slots =>
      rw [slots] at valid ⊢
      split at valid
      · rename_i here
        rw [if_pos here]
        exact .inr ⟨plain, nonce, accepted, parsed, rfl⟩
      rename_i notFirst
      rw [if_neg notFirst]
      left
      split at valid
      · rename_i second
        rw [if_pos second]
        obtain ⟨rfl, _⟩ := second
        exact ⟨moved, before moved valid⟩
      · rename_i elsewhere
        rw [if_neg elsewhere]
        exact ⟨position, before position valid⟩

end

end SecureDatagramSession

end EasyTier.Tunnel
