import EasyTier.Semantics.System
import EasyTier.Tunnel.RxSlots
import Mathlib.Data.List.Nodup

/-! # Anti-replay over whole runs of a session

A session can forget an epoch: idle slots are evicted, the grace slots expire and a second sync
overwrites them, and a slot moves out when newer epochs arrive. A forgotten epoch is opened
again by the next packet that names it, with an empty window, so a packet accepted before is
accepted once more. In runs where no such packet arrives, no packet is accepted twice: each
live window stands for all the numbers accepted in its direction and epoch.
-/

namespace EasyTier.Tunnel

open Data Packet Semantics SecureDatagramSession ReplayWindow256

/-- A session, the packets it accepted so far, and the last clock value it read. -/
structure ReplayState where
  session : SecureDatagramSession
  accepted : List (SecureDatagramDirection × NonceParts)
  clockMs : Nat

/-- The calls of a run; every sync keeps the root key. -/
inductive ReplayCall where
  | decryptPayload (dir : SecureDatagramDirection) (packet : ZCPacket) (nowMs : Nat)
  | syncRootKey (sessionGeneration initialEpoch : Nat) (preserveRxGrace : Bool) (nowMs : Nat)

/-- One call; the clock never goes back. -/
def ReplayState.step? (primitives : Primitives) (state : ReplayState) :
    ReplayCall → Option ReplayState
  | .decryptPayload dir packet nowMs =>
    if nowMs < state.clockMs then
      none
    else
      let (result, session) := state.session.decryptPayload primitives dir packet nowMs
      let accepted :=
        match result, parseTail packet.payload with
        | .ok _, some nonce => state.accepted ++ [(dir, nonce)]
        | _, _ => state.accepted
      some { session := session, accepted := accepted, clockMs := nowMs }
  | .syncRootKey sessionGeneration initialEpoch preserveRxGrace nowMs =>
    if nowMs < state.clockMs then
      none
    else
      some { state with
        session := state.session.syncRootKey state.session.rootKey sessionGeneration initialEpoch
          preserveRxGrace nowMs
        clockMs := nowMs }

/-- The state a run starts in: a new session that has accepted nothing. -/
def ReplayState.Initial (state : ReplayState) : Prop :=
  ∃ rootKey sessionGeneration initialEpoch sendAlgorithm recvAlgorithm,
    state.session = SecureDatagramSession.new rootKey sessionGeneration initialEpoch sendAlgorithm
      recvAlgorithm state.clockMs ∧
    state.accepted = []

/-- The runs of one session. -/
def replaySystem (primitives : Primitives) : System ReplayState ReplayCall :=
  .ofStep ReplayState.Initial (ReplayState.step? primitives)

/-- A packet of a direction and epoch accepted before arrives only while a live slot still decides
about that epoch. -/
def ReplayState.Remembers (state : ReplayState) : ReplayCall → Prop
  | .decryptPayload dir packet nowMs =>
    ∀ nonce ∈ parseTail packet.payload,
      (∃ earlier ∈ state.accepted, earlier.1 = dir ∧ earlier.2.epoch = nonce.epoch) →
        (state.session.refreshRx nowMs).2.answersFor dir nonce.epoch = true
  | .syncRootKey .. => True

instance (state : ReplayState) (call : ReplayCall) : Decidable (state.Remembers call) := by
  unfold ReplayState.Remembers
  cases call <;> infer_instance

/-- The numbers accepted in a direction and epoch. -/
def acceptedSeqs (accepted : List (SecureDatagramDirection × NonceParts))
    (dir : SecureDatagramDirection) (epoch : Nat) : Set Nat :=
  { seq | (dir, { epoch := epoch, seq := seq }) ∈ accepted }

/-- Every slot in use tracks all that was accepted in its direction and epoch, and no two slots
of a direction serve the same epoch. -/
structure Tracked (session : SecureDatagramSession)
    (accepted : List (SecureDatagramDirection × NonceParts)) : Prop where
  used : ∀ dir place, (session.slotAt dir place).valid = true →
    (session.slotAt dir place).window.valid = true
  tracks : ∀ dir place, (session.slotAt dir place).valid = true →
    (session.slotAt dir place).window.Tracks
      (acceptedSeqs accepted dir (session.slotAt dir place).epoch)
  apart : ∀ dir place other, (session.slotAt dir place).valid = true →
    (session.slotAt dir other).valid = true →
    (session.slotAt dir place).epoch = (session.slotAt dir other).epoch → place = other

theorem acceptedSeqs_append (accepted : List (SecureDatagramDirection × NonceParts))
    (dir : SecureDatagramDirection) (nonce : NonceParts) (other : SecureDatagramDirection)
    (epoch : Nat) :
    acceptedSeqs (accepted ++ [(dir, nonce)]) other epoch =
      if other = dir ∧ epoch = nonce.epoch then insert nonce.seq (acceptedSeqs accepted dir epoch)
      else acceptedSeqs accepted other epoch := by
  obtain ⟨nonceEpoch, nonceSeq⟩ := nonce
  ext seq
  by_cases same : other = dir ∧ epoch = nonceEpoch
  · obtain ⟨rfl, rfl⟩ := same
    simp [acceptedSeqs, or_comm]
  simp only [acceptedSeqs, List.mem_append, List.mem_singleton, Prod.mk.injEq,
    NonceParts.mk.injEq, Set.mem_ofPred_eq, same, if_false]
  constructor
  · rintro (member | ⟨sameDir, sameEpoch, _⟩)
    · exact member
    · exact absurd ⟨sameDir, sameEpoch⟩ same
  · exact Or.inl

variable {accepted : List (SecureDatagramDirection × NonceParts)} {dir : SecureDatagramDirection}
  {session : SecureDatagramSession}

/-- A slot in use serves an epoch of which something was accepted. -/
theorem Tracked.known (tracked : Tracked session accepted) {place : Place}
    (valid : (session.slotAt dir place).valid = true) :
    ∃ earlier ∈ accepted, earlier.1 = dir ∧
      earlier.2.epoch = (session.slotAt dir place).epoch := by
  have highest := ((tracked.tracks dir place valid).highest (tracked.used dir place valid)).1
  exact ⟨_, highest, rfl, rfl⟩

section

variable {before after : SecureDatagramSession} (tracked : Tracked before accepted)
include tracked

theorem Tracked.forgets
    (forgets : Forgets before after) : Tracked after accepted where
  used dir place valid := by
    obtain ⟨beforeValid, _, window⟩ := forgets dir place valid
    rw [window]
    exact tracked.used dir place beforeValid
  tracks dir place valid := by
    obtain ⟨beforeValid, epoch, window⟩ := forgets dir place valid
    rw [window, epoch]
    exact tracked.tracks dir place beforeValid
  apart dir place other valid otherValid same := by
    obtain ⟨beforeValid, epoch, _⟩ := forgets dir place valid
    obtain ⟨otherBefore, otherEpoch, _⟩ := forgets dir other otherValid
    rw [epoch, otherEpoch] at same
    exact tracked.apart dir place other beforeValid otherBefore same

/-- One slot takes the number and the others, possibly moved, serve other epochs. -/
theorem Tracked.extend
    {nonce : NonceParts} (place : Place) (origin : Place → Place) {slot : EpochRxSlot}
    (written : after.slotAt dir place = slot) (serves : slot.epoch = nonce.epoch)
    (used : slot.window.valid = true)
    (window : slot.window.Tracks (insert nonce.seq (acceptedSeqs accepted dir nonce.epoch)))
    (elsewhere : ∀ other otherPlace, ¬ (other = dir ∧ otherPlace = place) →
      after.slotAt other otherPlace =
        before.slotAt other (if other = dir then origin otherPlace else otherPlace))
    (separate : ∀ first second, first ≠ place → second ≠ place →
      origin first = origin second → first = second)
    (different : ∀ otherPlace, otherPlace ≠ place → (after.slotAt dir otherPlace).valid = true →
      (after.slotAt dir otherPlace).epoch ≠ nonce.epoch) :
    Tracked after (accepted ++ [(dir, nonce)]) where
  used other otherPlace otherValid := by
    by_cases here : other = dir ∧ otherPlace = place
    · rw [here.1, here.2, written]
      exact used
    · rw [elsewhere _ _ here] at otherValid ⊢
      exact tracked.used _ _ otherValid
  tracks other otherPlace otherValid := by
    rw [acceptedSeqs_append]
    by_cases here : other = dir ∧ otherPlace = place
    · obtain ⟨rfl, rfl⟩ := here
      rw [written, if_pos ⟨rfl, serves⟩, serves]
      exact window
    have apart : ¬ (other = dir ∧ (after.slotAt other otherPlace).epoch = nonce.epoch) := by
      rintro ⟨rfl, sameEpoch⟩
      exact different otherPlace (fun same => here ⟨rfl, same⟩) otherValid sameEpoch
    rw [if_neg apart]
    rw [elsewhere _ _ here] at otherValid ⊢
    exact tracked.tracks _ _ otherValid
  apart other first second firstValid secondValid same := by
    by_cases sameDir : other = dir
    · subst sameDir
      by_cases firstHere : first = place
      · by_cases secondHere : second = place
        · rw [firstHere, secondHere]
        · rw [firstHere, written, serves] at same
          exact absurd same.symm (different second secondHere secondValid)
      · by_cases secondHere : second = place
        · rw [secondHere, written, serves] at same
          exact absurd same (different first firstHere firstValid)
        · rw [elsewhere _ _ (by simp [firstHere])] at firstValid same
          rw [elsewhere _ _ (by simp [secondHere])] at secondValid same
          simp only [if_true] at firstValid secondValid same
          exact separate first second firstHere secondHere
            (tracked.apart _ _ _ firstValid secondValid same)
    · have unmoved : ∀ otherPlace, after.slotAt other otherPlace =
          before.slotAt other otherPlace := by
        intro otherPlace
        rw [elsewhere other otherPlace (by simp [sameDir]), if_neg sameDir]
      rw [unmoved] at firstValid secondValid
      rw [unmoved, unmoved] at same
      exact tracked.apart _ _ _ firstValid secondValid same

end

/-- An accepted number was not accepted before, and the invariant goes on with it: a live slot
tracks everything accepted in its epoch, and a slot is opened only for an unknown epoch. -/
theorem Tracked.accepts {opened after : SecureDatagramSession}
    (tracked : Tracked opened accepted)
    {nonce : NonceParts} {nowMs : Nat}
    (accepts : Accepts opened after dir nonce.epoch nonce.seq nowMs)
    (remembers : (∃ earlier ∈ accepted, earlier.1 = dir ∧ earlier.2.epoch = nonce.epoch) →
      opened.answersFor dir nonce.epoch = true) :
    Tracked after (accepted ++ [(dir, nonce)]) ∧ (dir, nonce) ∉ accepted := by
  cases accepts with
  | inPlace place holds taken slots =>
    simp only [EpochRxSlot.holds, Bool.and_eq_true, beq_iff_eq] at holds
    obtain ⟨valid, serves⟩ := holds
    have before := tracked.tracks dir place valid
    rw [serves] at before
    have fresh : ReplayWindow256.Fresh _ nonce.seq :=
      (before.canAccept_iff nonce.seq).mp (by simpa [EpochRxSlot.accept] using taken)
    refine ⟨tracked.extend place id ((slots dir place).trans (if_pos ⟨rfl, rfl⟩)) serves
      (valid_snd_accept _ _) (before.accept taken) ?_ (fun _ _ _ _ same => same) ?_, fresh.1⟩
    · intro other otherPlace elsewhere
      rw [slots, if_neg elsewhere]
      simp
    · intro otherPlace away otherValid sameEpoch
      rw [slots, if_neg (by simp [away])] at otherValid sameEpoch
      exact away (tracked.apart dir _ _ otherValid valid (sameEpoch.trans serves.symm))
  | opening unanswered moved slots =>
    have unknown : ¬ ∃ earlier ∈ accepted, earlier.1 = dir ∧ earlier.2.epoch = nonce.epoch := by
      intro known
      rw [remembers known] at unanswered
      cases unanswered
    have nothing : acceptedSeqs accepted dir nonce.epoch = ∅ := by
      ext seq
      simp only [acceptedSeqs, Set.mem_ofPred_eq, Set.mem_empty_iff_false, iff_false]
      exact fun member => unknown ⟨_, member, rfl, rfl⟩
    refine ⟨tracked.extend (.rx .first)
      (fun place => if place = .rx .second then .rx moved else place)
      ((slots dir (.rx .first)).trans (if_pos ⟨rfl, rfl⟩)) rfl (valid_snd_accept _ _) ?_ ?_ ?_ ?_,
      fun member => unknown ⟨_, member, rfl, rfl⟩⟩
    · rw [nothing]
      exact tracks_default.accept (fst_accept_opened nonce.epoch nonce.seq nowMs)
    · intro other otherPlace elsewhere
      rw [slots, if_neg elsewhere]
      by_cases sameDir : other = dir
      · subst sameDir
        by_cases secondPlace : otherPlace = .rx .second <;> simp [secondPlace]
      · simp [sameDir]
    · intro first second firstAway secondAway
      -- only `rx .second` moves, and `rx .first` is not among the places compared
      rcases first with (_ | _) | _ <;> rcases second with (_ | _) | _ <;> cases moved <;> simp_all
    · intro otherPlace away otherValid sameEpoch
      obtain ⟨old, isOld⟩ : ∃ old, after.slotAt dir otherPlace = opened.slotAt dir old := by
        rw [slots, if_neg (by simp [away])]
        split <;> exact ⟨_, rfl⟩
      rw [isOld] at otherValid sameEpoch
      obtain ⟨earlier, member, sameDir, epoch⟩ := tracked.known otherValid
      exact unknown ⟨earlier, member, sameDir, epoch.trans sameEpoch⟩

theorem slotAt_syncRootKey (session : SecureDatagramSession) (rootKey : RootKey)
    (sessionGeneration initialEpoch : Nat) (preserveRxGrace : Bool) (nowMs : Nat)
    (dir : SecureDatagramDirection) (place : Place) :
    (session.syncRootKey rootKey sessionGeneration initialEpoch preserveRxGrace nowMs).slotAt
      dir place = .default ∨
    ∃ position, place = .grace position ∧
      (session.syncRootKey rootKey sessionGeneration initialEpoch preserveRxGrace nowMs).slotAt
        dir place = session.slotAt dir (.rx position) := by
  cases place with
  | rx position =>
    simp [slotAt, syncRootKey, RxSlots.default]
  | grace position =>
    by_cases preserve : preserveRxGrace ∧ session.rootKey = rootKey
    · simp [slotAt, syncRootKey, preserve, graceLive, SyncRxGrace.refresh, syncRxGraceAfterMs]
    · simp [slotAt, syncRootKey, preserve, graceLive]

/-- A sync drops the grace slots and may keep the rx slots in their place. -/
theorem Tracked.syncRootKey (tracked : Tracked session accepted)
    (rootKey : RootKey) (sessionGeneration initialEpoch : Nat) (preserveRxGrace : Bool)
    (nowMs : Nat) :
    Tracked (session.syncRootKey rootKey sessionGeneration initialEpoch preserveRxGrace nowMs)
      accepted := by
  have origin := fun dir place => slotAt_syncRootKey session rootKey sessionGeneration initialEpoch
    preserveRxGrace nowMs dir place
  generalize session.syncRootKey rootKey sessionGeneration initialEpoch preserveRxGrace nowMs =
    after at origin
  have moved : ∀ {dir place}, (after.slotAt dir place).valid = true →
      ∃ position, place = .grace position ∧
        after.slotAt dir place = session.slotAt dir (.rx position) := by
    intro dir place valid
    rcases origin dir place with empty | found
    · rw [empty] at valid
      cases valid
    · exact found
  refine ⟨fun dir place valid => ?_, fun dir place valid => ?_,
    fun dir first second firstValid secondValid same => ?_⟩
  · obtain ⟨position, _, from_⟩ := moved valid
    rw [from_] at valid ⊢
    exact tracked.used _ _ valid
  · obtain ⟨position, _, from_⟩ := moved valid
    rw [from_] at valid ⊢
    exact tracked.tracks _ _ valid
  · obtain ⟨firstPosition, rfl, firstFrom⟩ := moved firstValid
    obtain ⟨secondPosition, rfl, secondFrom⟩ := moved secondValid
    rw [firstFrom] at firstValid same
    rw [secondFrom] at secondValid same
    have samePlace := tracked.apart dir _ _ firstValid secondValid same
    cases samePlace
    rfl

theorem tracked_new (rootKey : RootKey) (sessionGeneration initialEpoch : Nat)
    (sendAlgorithm recvAlgorithm : String) (nowMs : Nat) :
    Tracked (new rootKey sessionGeneration initialEpoch sendAlgorithm
      recvAlgorithm nowMs) [] := by
  have empty : ∀ dir place, (new rootKey sessionGeneration initialEpoch
      sendAlgorithm recvAlgorithm nowMs).slotAt dir place = .default := by
    intro dir place
    cases place <;> simp [slotAt, new, RxSlots.default, graceLive]
  refine ⟨fun dir place valid => ?_, fun dir place valid => ?_,
    fun dir place other valid => ?_⟩ <;>
  · rw [empty] at valid
    cases valid

/-- The invariant of runs that respect `Remembers`. -/
structure ReplayState.Sound (state : ReplayState) : Prop where
  tracked : Tracked state.session state.accepted
  distinct : state.accepted.Nodup

theorem ReplayState.Sound.step {primitives : Primitives} {before after : ReplayState}
    {call : ReplayCall} (sound : before.Sound) (remembers : before.Remembers call)
    (transition : before.step? primitives call = some after) : after.Sound := by
  cases call with
  | syncRootKey sessionGeneration initialEpoch preserveRxGrace nowMs =>
    simp only [step?] at transition
    split at transition
    · cases transition
    cases transition
    exact ⟨sound.tracked.syncRootKey _ _ _ _ _, sound.distinct⟩
  | decryptPayload dir packet nowMs =>
    simp only [step?] at transition
    split at transition
    · cases transition
    cases transition
    rcases (before.session.decryptPayload_cases primitives dir packet nowMs).2 with
      ⟨error, failed, forgets⟩ | ⟨plain, nonce, succeeded, parsed, accepts⟩
    · rw [failed]
      exact ⟨sound.tracked.forgets forgets, sound.distinct⟩
    · have opened := sound.tracked.forgets (before.session.forgets_refreshRx nowMs)
      obtain ⟨tracked, unseen⟩ := opened.accepts accepts (remembers nonce parsed)
      rw [succeeded, parsed]
      refine ⟨tracked, ?_⟩
      simpa using List.Nodup.concat unseen sound.distinct

/-- In every run in which a packet of an epoch accepted before arrives only while a live slot
still decides about that epoch, no packet is accepted twice. -/
theorem accepted_nodup_of_remembers (primitives : Primitives) {state : ReplayState}
    (reached : (replaySystem primitives).ReachableUnder ReplayState.Remembers state) :
    state.accepted.Nodup := by
  have sound : state.Sound := by
    refine reached.invariant ?_ fun before call after sound remembers transition =>
      sound.step remembers transition
    rintro start ⟨rootKey, generation, epoch, sendAlgorithm, recvAlgorithm, session, nothing⟩
    refine ⟨?_, by rw [nothing]; exact List.nodup_nil⟩
    rw [session, nothing]
    exact tracked_new _ _ _ _ _ _
  exact sound.distinct

/-- A session as its two ends create it. -/
private def pairedSession (nowMs : Nat) : SecureDatagramSession :=
  .new 7 1 0 "aes-gcm" "aes-gcm" nowMs

private def plainPacket : ZCPacket where
  header :=
    { fromPeerId := 1, toPeerId := 2, packetType := PacketType.data.code, flags := 0,
      forwardCounter := 0, reserved := 0, len := 0 }
  payload := []

/-- The first packets of a session, sealed in order by the sending end. -/
private def sentPacket (seq : Nat) : ZCPacket where
  header := plainPacket.header.setEncrypted true
  payload := List.replicate 16 0#8 ++ NonceParts.bytes { epoch := 0, seq := seq }

private def pairedStart : ReplayState :=
  { session := pairedSession 1000, accepted := [], clockMs := 1000 }

private theorem pairedStart_initial : pairedStart.Initial :=
  ⟨7, 1, 0, "aes-gcm", "aes-gcm", rfl, rfl⟩

theorem accepted_nodup_with_refused_copies :
    ∃ state, System.run? (System.restrict ReplayState.Remembers
        (ReplayState.step? .transparent)) pairedStart
        [.decryptPayload .aToB (sentPacket 0) 1000, .decryptPayload .aToB (sentPacket 1) 1001,
          .decryptPayload .aToB (sentPacket 0) 1002, .syncRootKey 1 1 true 2000,
          .decryptPayload .aToB (sentPacket 1) 2001] = some state ∧
      state.accepted.map (·.2.seq) = [0, 1] ∧ state.accepted.Nodup := by
  exact System.exists_of_run? _ _ (fun state => state.accepted.map (·.2.seq) = [0, 1])
    (by decide +kernel) fun state ran seqs => ⟨seqs, accepted_nodup_of_remembers .transparent
      (System.reachableUnder_of_run? (.start pairedStart_initial) ran)⟩

/-- A packet the sending end sealed is accepted, and accepted again after half a minute of
silence, when its slot has been evicted. -/
theorem replay_accepted_after_idle_eviction :
    ((pairedSession 1000).encryptPayload .transparent .aToB plainPacket 1000).1 =
      .ok (sentPacket 0) ∧
    ∃ state, System.run? (ReplayState.step? .transparent) pairedStart
        [.decryptPayload .aToB (sentPacket 0) 1000,
          .decryptPayload .aToB (sentPacket 0) 31001] = some state ∧
      (replaySystem .transparent).Reachable state ∧ ¬ state.accepted.Nodup := by
  refine ⟨by decide +kernel, ?_⟩
  exact System.exists_of_run? _ _ (fun state => ¬ state.accepted.Nodup) (by decide +kernel)
    fun state ran twice => ⟨System.reachable_of_run? pairedStart_initial ran, twice⟩

end EasyTier.Tunnel
