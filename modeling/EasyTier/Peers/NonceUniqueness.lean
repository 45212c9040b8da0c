import EasyTier.Peers.PairEffects
import Mathlib.Data.List.Nodup

/-! # Nonces under one root key

A side that installs a root key counts from zero again, in the epoch its answer names. The
responder derives that epoch from what it sent and from what it still remembers receiving, so it
can name an epoch in which the initiator already drew nonces that never arrived. As long as every
installed epoch lies above the epochs the initiator used under the key, no nonce is drawn twice.
-/

namespace EasyTier.Peers

open Data Packet Tunnel Semantics
open SecureDatagramSession (NonceParts)

/-- An installed epoch lies above every epoch in which the initiator drew a nonce under the key. -/
def PairState.InstallsAbove (config : PairConfig) (state : PairState) : PairEvent → Prop
  | .finish index _ =>
    ∀ msg2 ∈ state.msg2s[index]?, ∀ use ∈ state.used, use.dir = config.sendDir msg2.initiator →
      msg2.answer.rootKey = some use.rootKey → use.nonce.epoch < msg2.answer.initialEpoch
  | _ => True

instance (config : PairConfig) (state : PairState) (event : PairEvent) :
    Decidable (state.InstallsAbove config event) := by
  unfold PairState.InstallsAbove
  cases_type PairEvent <;> infer_instance

/-- Fewer epochs were started than a 32-bit epoch can number, and fewer packets encrypted than a
64-bit sequence number can. -/
def PairState.Bounded (state : PairState) : Prop :=
  state.epochs < 2 ^ 32 ∧ state.used.length < 2 ^ 64

/-- Nonces in the order in which one session draws them. -/
def DrawnBefore (first second : NonceParts) : Prop :=
  first.epoch < second.epoch ∨ first.epoch = second.epoch ∧ first.seq < second.seq

/-- What an entry has to satisfy for the next nonce to be new. -/
structure SendsFresh (config : PairConfig) (state : PairState) (side : Side)
    (session : PeerSession) : Prop where
  known : session.rootKey ∈ state.rootKeys
  ahead : ∀ use ∈ state.used, use.dir = config.sendDir side → use.rootKey = session.rootKey →
    DrawnBefore use.nonce
      ⟨session.datagram.sendEpoch, session.datagram.sendSeq.get (config.sendDir side)⟩
  sendSeq : session.datagram.sendSeq.get (config.sendDir side) ≤ state.used.length
  sendEpoch : session.datagram.sendEpoch ≤ state.epochs
  rxEpochs : ∀ dir position, ((session.datagram.rxSlots.get dir).get position).valid = true →
    ((session.datagram.rxSlots.get dir).get position).epoch ≤ state.epochs

/-- The invariant of bounded runs that respect `InstallsAbove`. -/
structure NoncesFresh (config : PairConfig) (state : PairState) : Prop where
  sessions : ∀ side session, state.entry config side = some session →
    SendsFresh config state side session
  answerKeys : ∀ msg2 ∈ state.msg2s, ∀ rootKey ∈ msg2.answer.rootKey, rootKey ∈ state.rootKeys
  answerEpochs : ∀ msg2 ∈ state.msg2s, msg2.answer.initialEpoch ≤ state.epochs
  usedKeys : ∀ use ∈ state.used, use.rootKey ∈ state.rootKeys
  usedEpochs : ∀ use ∈ state.used, use.nonce.epoch ≤ state.epochs
  distinct : state.used.Nodup

variable {config : PairConfig} {before after : PairState} {side : Side} {session : PeerSession}
  {epoch : Nat}

/-- What a session needs survives when only more keys and epochs are on record. -/
theorem SendsFresh.mono (fresh : SendsFresh config before side session)
    (rootKeys : before.rootKeys ⊆ after.rootKeys) (used : after.used = before.used)
    (epochs : before.epochs ≤ after.epochs) : SendsFresh config after side session where
  known := rootKeys fresh.known
  ahead := by
    rw [used]
    exact fresh.ahead
  sendSeq := by
    rw [used]
    exact fresh.sendSeq
  sendEpoch := fresh.sendEpoch.trans epochs
  rxEpochs dir position valid := (fresh.rxEpochs dir position valid).trans epochs

/-- A session that goes on needs nothing new, as long as what it heard is on record. -/
theorem SendsFresh.continues {state : PairState}
    {next : PeerSession} (fresh : SendsFresh config state side session)
    {heard : Nat → Prop} (bounded : ∀ epoch, heard epoch → epoch ≤ state.epochs)
    (goesOn : Continues heard session next) : SendsFresh config state side next where
  known := by
    rw [goesOn.rootKey]
    exact fresh.known
  ahead := by
    rw [goesOn.rootKey, goesOn.sendEpoch, goesOn.sendSeq]
    exact fresh.ahead
  sendSeq := by
    rw [goesOn.sendSeq]
    exact fresh.sendSeq
  sendEpoch := by
    rw [goesOn.sendEpoch]
    exact fresh.sendEpoch
  rxEpochs dir position valid := by
    rcases goesOn.rxEpochs dir position valid with ⟨origin, originValid, same⟩ | new
    · rw [same]
      exact fresh.rxEpochs dir origin originValid
    · exact bounded _ new

theorem NoncesFresh.heard_le {state : PairState}
    (fresh : NoncesFresh config state) (heard : state.Heard epoch) : epoch ≤ state.epochs := by
  obtain ⟨use, member, rfl⟩ := heard
  exact fresh.usedEpochs use member

section

variable (fresh : NoncesFresh config before)
include fresh

/-- Entries that go on keep what they need. -/
theorem NoncesFresh.sessions_continue
    (history : SameHistory before after)
    (entries : ∀ side, EntryContinues config before after side) (side : Side)
    (session : PeerSession) (stored : after.entry config side = some session) :
    SendsFresh config after side session := by
  rcases entries side with gone | ⟨earlier, next, found, kept, goesOn, _⟩
  · rw [gone] at stored
    cases stored
  · rw [kept] at stored
    cases stored
    have continued := (fresh.sessions side earlier found).continues
      (fun _ heard => fresh.heard_le heard) goesOn
    exact continued.mono (by rw [history.rootKeys]; exact List.Subset.refl _) history.used
      (by rw [history.epochs])

theorem NoncesFresh.same_history
    (history : SameHistory before after)
    (msg2s : ∀ msg2 ∈ after.msg2s, msg2 ∈ before.msg2s)
    (sessions : ∀ side session, after.entry config side = some session →
      SendsFresh config after side session) : NoncesFresh config after where
  sessions := sessions
  answerKeys msg2 member := by
    rw [history.rootKeys]
    exact fresh.answerKeys msg2 (msg2s msg2 member)
  answerEpochs msg2 member := by
    rw [history.epochs]
    exact fresh.answerEpochs msg2 (msg2s msg2 member)
  usedKeys := by
    rw [history.used, history.rootKeys]
    exact fresh.usedKeys
  usedEpochs := by
    rw [history.used, history.epochs]
    exact fresh.usedEpochs
  distinct := by
    rw [history.used]
    exact fresh.distinct

/-- A new answer extends the histories; the entries that were there keep what they need. -/
theorem NoncesFresh.answer {newRootKey : RootKey} {msg2 : Msg2}
    (used : after.used = before.used) (rootKeys : after.rootKeys = before.rootKeys ++ [newRootKey])
    (epochs : before.epochs ≤ after.epochs) (msg2s : after.msg2s = before.msg2s ++ [msg2])
    (key : ∀ rootKey ∈ msg2.answer.rootKey, rootKey ∈ after.rootKeys)
    (epoch : msg2.answer.initialEpoch ≤ after.epochs)
    (sessions : ∀ side session, after.entry config side = some session →
      before.entry config side = some session ∨ SendsFresh config after side session) :
    NoncesFresh config after := by
  have more : before.rootKeys ⊆ after.rootKeys := by
    rw [rootKeys]
    exact List.subset_append_left _ _
  refine ⟨fun side session stored => ?_, fun other member => ?_, fun other member => ?_, ?_, ?_, ?_⟩
  · rcases sessions side session stored with unchanged | new
    · exact (fresh.sessions side session unchanged).mono more used epochs
    · exact new
  · rw [msg2s, List.mem_append, List.mem_singleton] at member
    rcases member with old | rfl
    · exact fun rootKey carried => more (fresh.answerKeys other old rootKey carried)
    · exact key
  · rw [msg2s, List.mem_append, List.mem_singleton] at member
    rcases member with old | rfl
    · exact (fresh.answerEpochs other old).trans epochs
    · exact epoch
  · rw [used]
    exact fun use member => more (fresh.usedKeys use member)
  · rw [used]
    exact fun use member => (fresh.usedEpochs use member).trans epochs
  · rw [used]
    exact fresh.distinct

omit fresh in
/-- The session that draws has moved past everything drawn so far, the new nonce included. -/
theorem SendsFresh.draw (own : SendsFresh config before side session)
    (bounded : after.Bounded) (rootKeys : after.rootKeys = before.rootKeys)
    (used : after.used = before.used ++ [⟨session.rootKey, config.sendDir side,
      { epoch := epoch, seq := session.datagram.sendSeq.get (config.sendDir side) }⟩])
    (notBelow : session.datagram.sendEpoch ≤ epoch) (epochBound : epoch ≤ after.epochs)
    (moreEpochs : before.epochs ≤ after.epochs) :
    SendsFresh config after side (session.drew (config.sendDir side) epoch) := by
  have lengths : after.used.length = before.used.length + 1 := by
    rw [used, List.length_append, List.length_singleton]
  have nextSeq : (session.datagram.sendSeq.get (config.sendDir side) + 1) % 2 ^ 64 =
      session.datagram.sendSeq.get (config.sendDir side) + 1 := by
    have := own.sendSeq
    have := bounded.2
    exact Nat.mod_eq_of_lt (by omega)
  refine ⟨rootKeys ▸ own.known, ?_, ?_, epochBound,
    fun dir position valid => (own.rxEpochs dir position valid).trans moreEpochs⟩
  · intro use member sameDir sameKey
    simp only [PeerSession.drew, ByDirection.get_set, if_true, nextSeq]
    rw [used, List.mem_append, List.mem_singleton] at member
    rcases member with old | rfl
    · have earlier := own.ahead use old sameDir sameKey
      simp only [DrawnBefore] at earlier ⊢
      omega
    · exact .inr ⟨rfl, Nat.lt_succ_self _⟩
  · simp only [PeerSession.drew, ByDirection.get_set, if_true, nextSeq, lengths]
    exact Nat.succ_le_succ own.sendSeq

omit fresh in
/-- A nonce of one side is none of the other's, who sends in the other direction. -/
theorem SendsFresh.opposite {use : NonceUse} (theirs : SendsFresh config before side.other session)
    (rootKeys : after.rootKeys = before.rootKeys) (used : after.used = before.used ++ [use])
    (ours : use.dir = config.sendDir side) (moreEpochs : before.epochs ≤ after.epochs) :
    SendsFresh config after side.other session := by
  refine ⟨rootKeys ▸ theirs.known, ?_, ?_, theirs.sendEpoch.trans moreEpochs,
    fun dir position valid => (theirs.rxEpochs dir position valid).trans moreEpochs⟩
  · intro other member sameDir sameKey
    rw [used, List.mem_append, List.mem_singleton] at member
    rcases member with old | rfl
    · exact theirs.ahead other old sameDir sameKey
    · exact absurd (sameDir.symm.trans ours) (config.sendDir_other_ne side)
  · rw [used, List.length_append, List.length_singleton]
    exact theirs.sendSeq.trans (Nat.le_succ _)

/-- The nonce drawn next is new, and the session has moved past it. -/
theorem NoncesFresh.drawn {next : PeerSession}
    (bounded : after.Bounded) (draws : Draws config before after side session next epoch) :
    NoncesFresh config after := by
  obtain ⟨stored, epochs, rootKeys, msg2s, used, counted, entry, others, goesOn⟩ := draws
  have own := fresh.sessions side session stored
  obtain ⟨notBelow, epochBound⟩ : session.datagram.sendEpoch ≤ epoch ∧ epoch ≤ after.epochs := by
    have known := own.sendEpoch
    have below := bounded.1
    split at counted
    · omega
    · omega
  have moreEpochs : before.epochs ≤ after.epochs := by
    rw [counted]
    exact Nat.le_add_right _ _
  have isNew : (⟨session.rootKey, config.sendDir side,
      ⟨epoch, session.datagram.sendSeq.get (config.sendDir side)⟩⟩ : NonceUse) ∉ before.used := by
    intro member
    have earlier := own.ahead _ member rfl rfl
    simp only [DrawnBefore] at earlier
    omega
  refine ⟨fun other otherSession otherStored => ?_, ?_, ?_, ?_, ?_, ?_⟩
  · rcases other.eq_or_eq_other side with rfl | rfl
    · rw [entry] at otherStored
      cases otherStored
      exact (own.draw bounded rootKeys used notBelow epochBound moreEpochs).continues
        (fun _ heard => (fresh.heard_le heard).trans moreEpochs) goesOn
    · rw [others] at otherStored
      exact (fresh.sessions side.other otherSession otherStored).opposite rootKeys used rfl
        moreEpochs
  · rw [msg2s, rootKeys]
    exact fresh.answerKeys
  · rw [msg2s]
    exact fun msg2 member => (fresh.answerEpochs msg2 member).trans moreEpochs
  · intro use member
    rw [used, List.mem_append, List.mem_singleton] at member
    rw [rootKeys]
    rcases member with old | rfl
    · exact fresh.usedKeys use old
    · exact own.known
  · intro use member
    rw [used, List.mem_append, List.mem_singleton] at member
    rcases member with old | rfl
    · exact (fresh.usedEpochs use old).trans moreEpochs
    · exact epochBound
  · rw [used]
    simpa using List.Nodup.concat isNew fresh.distinct

omit fresh in
/-- Histories only grow. -/
theorem PairEffect.monotone {event : PairEvent} (effect : PairEffect config before after event) :
    before.epochs ≤ after.epochs ∧ before.used.length ≤ after.used.length := by
  cases effect with
  | quiet history | handled _ history | installed _ _ history =>
    exact ⟨history.epochs.ge, by rw [history.used]⟩
  | created _ _ _ used _ epochs => exact ⟨epochs.ge, by rw [used]⟩
  | answered _ _ _ used _ _ answer =>
    refine ⟨?_, by rw [used]⟩
    rcases answer with ⟨_, epochs, _⟩ | ⟨_, epochs, _⟩ <;> omega
  | drawn _ draws =>
    refine ⟨by rw [draws.counted]; exact Nat.le_add_right _ _, ?_⟩
    rw [draws.used, List.length_append]
    exact Nat.le_add_right _ _

theorem NoncesFresh.step {event : PairEvent}
    (above : before.InstallsAbove config event)
    (bounded : after.Bounded) (effect : PairEffect config before after event) :
    NoncesFresh config after := by
  cases effect with
  | quiet history msg2s entries =>
    refine fresh.same_history history (fun msg2 member => ?_)
      (fresh.sessions_continue history entries)
    rwa [msg2s] at member
  | @created index newRootKey nowMs msg1 _ unused _ used rootKeys epochs msg2s entry others =>
    have keyKnown : newRootKey ∈ after.rootKeys := by
      rw [rootKeys]
      exact List.mem_append_right _ (List.mem_singleton_self _)
    refine fresh.answer used rootKeys epochs.ge msg2s ?_ (Nat.zero_le _)
      fun side session stored => ?_
    · rintro rootKey ⟨rfl⟩
      exact keyKnown
    · rcases side.eq_or_eq_other msg1.initiator with rfl | rfl
      · rw [others] at stored
        exact .inl stored
      · rw [entry] at stored
        cases stored
        refine .inr ⟨keyKnown, ?_, ?_, Nat.zero_le _, ?_⟩
        · intro use member _ sameKey
          rw [used] at member
          have known := fresh.usedKeys use member
          rw [sameKey] at known
          exact absurd known unused
        · simp [PeerSession.new, SecureDatagramSession.new]
        · intro dir position valid
          cases dir <;> cases position <;> cases valid
  | @answered index newRootKey nowMs msg1 session _ stored _ used rootKeys entries answer =>
    have own := fresh.sessions _ _ stored
    have unchanged : ∀ side other, after.entry config side = some other →
        before.entry config side = some other ∨ SendsFresh config after side other := by
      intro side other otherStored
      rw [entries] at otherStored
      exact .inl otherStored
    rcases answer with ⟨_, epochs, msg2s⟩ | ⟨_, epochs, msg2s⟩
    · refine fresh.answer used rootKeys epochs.ge msg2s ?_ (Nat.zero_le _) unchanged
      rintro rootKey ⟨⟩
    · refine fresh.answer used rootKeys (by omega) msg2s ?_ ?_ unchanged
      · rintro rootKey ⟨rfl⟩
        rw [rootKeys]
        exact List.mem_append_left _ own.known
      · rw [epochs]
        exact SecureDatagramSession.nextSyncEpoch_le own.sendEpoch own.rxEpochs
  | handled found history msg2s entries =>
    refine fresh.same_history history (fun msg2 member => ?_)
      (fresh.sessions_continue history entries)
    rw [msg2s] at member
    exact List.mem_of_mem_eraseIdx member
  | @installed index nowMs msg2 rootKey session found carried history msg2s entry installs others =>
    have inFlight : msg2 ∈ before.msg2s := List.mem_of_getElem? found
    refine fresh.same_history history (fun other member => ?_) fun side other stored => ?_
    · rw [msg2s] at member
      exact List.mem_of_mem_eraseIdx member
    · rcases side.eq_or_eq_other msg2.initiator with rfl | rfl
      · rw [entry] at stored
        cases stored
        refine ⟨?_, ?_, ?_, ?_, ?_⟩
        · rw [installs.rootKey, history.rootKeys]
          exact fresh.answerKeys msg2 inFlight rootKey carried
        · intro use member sameDir sameKey
          rw [installs.rootKey] at sameKey
          rw [history.used] at member
          left
          rw [installs.sendEpoch]
          exact above msg2 found use member sameDir (by rw [carried, sameKey])
        · rw [installs.sendSeq, ByDirection.get_both]
          exact Nat.zero_le _
        · rw [installs.sendEpoch, history.epochs]
          exact fresh.answerEpochs msg2 inFlight
        · intro dir position valid
          rw [installs.rxSlots] at valid
          simp [RxSlots.default, EpochRxSlot.default] at valid
      · rw [others] at stored
        exact (fresh.sessions _ _ stored).mono (by rw [history.rootKeys]; exact List.Subset.refl _)
          history.used (by rw [history.epochs])
  | drawn _ draws => exact fresh.drawn bounded draws

end

theorem noncesFresh_initial (config : PairConfig) : NoncesFresh config .initial where
  sessions _ _ stored := by cases stored
  answerKeys _ member := by cases member
  answerEpochs _ member := by cases member
  usedKeys _ member := by cases member
  usedEpochs _ member := by cases member
  distinct := List.nodup_nil

/-- In every run of fewer than 2^32 epochs and 2^64 packets in which each installed epoch lies above
the epochs its initiator used under the key, no nonce is drawn twice under one root key and
direction. -/
theorem used_nodup_of_installsAbove (config : PairConfig) {state : PairState}
    (reached : (pairSystem config).ReachableUnder (PairState.InstallsAbove config) state)
    (bounded : state.Bounded) : state.used.Nodup := by
  have fresh : state.Bounded → NoncesFresh config state := by
    refine reached.invariant (motive := fun state => state.Bounded → NoncesFresh config state) ?_ ?_
    · rintro _ rfl _
      exact noncesFresh_initial config
    · intro before event after fresh above transition bounded
      have effect := step?_effect transition
      obtain ⟨epochs, used⟩ := effect.monotone
      have earlier : before.Bounded := ⟨epochs.trans_lt bounded.1, used.trans_lt bounded.2⟩
      exact (fresh earlier).step above bounded effect
  exact (fresh bounded).distinct

private def plainToRight : ZCPacket where
  header :=
    { fromPeerId := 1, toPeerId := 2, packetType := PacketType.data.code, flags := 0,
      forwardCounter := 0, reserved := 0, len := 0 }
  payload := []

/-- The left side's first packet under a new key. -/
private def sealedToRight : ZCPacket where
  header := plainToRight.header.setEncrypted true
  payload := List.replicate 16 0#8 ++ NonceParts.bytes { epoch := 0, seq := 0 }

/-- Once a packet of the left side has arrived, the next answer names a later epoch. -/
private def heardRun : List PairEvent :=
  [.start .left false, .respond 0 7 1000, .finish 0 1000, .encrypt .left plainToRight 1001,
    .decrypt .right sealedToRight 1002, .start .left false, .respond 0 8 1003, .finish 0 1003,
    .encrypt .left plainToRight 1004]

theorem used_nodup_after_heard_sync :
    ∃ state, System.run? (System.restrict (PairState.InstallsAbove .twoPeers)
        (PairState.step? .twoPeers)) .initial heardRun = some state ∧
      state.used.map (fun use => (use.rootKey, use.nonce)) = [(7, ⟨0, 0⟩), (7, ⟨1, 0⟩)] ∧
      state.used.Nodup := by
  refine System.exists_of_run? _ _ (fun state =>
    state.used.map (fun use => (use.rootKey, use.nonce)) = [(7, ⟨0, 0⟩), (7, ⟨1, 0⟩)] ∧
      state.epochs = 1 ∧ state.used.length = 2) (by decide +kernel) ?_
  rintro state ran ⟨used, epochs, count⟩
  have bounded : state.Bounded := ⟨by rw [epochs]; decide, by rw [count]; decide⟩
  exact ⟨used, used_nodup_of_installsAbove .twoPeers
    (System.reachableUnder_of_run? (.start rfl) ran) bounded⟩

/-- The left side dials three times without reporting a generation. Both of the last two answers
name epoch 1, because nothing the left side sent in between has arrived. -/
private def unheardRun : List PairEvent :=
  [.start .left false, .respond 0 7 1000, .finish 0 1000, .start .left false, .respond 0 8 1001,
    .finish 0 1001, .encrypt .left plainToRight 1002, .start .left false, .respond 0 9 1003,
    .finish 0 1003, .encrypt .left plainToRight 1004]

theorem nonce_drawn_twice_after_unheard_sync :
    ∃ state, System.run? (PairState.step? .twoPeers) .initial unheardRun = some state ∧
      (pairSystem .twoPeers).Reachable state ∧ state.Bounded ∧ ¬ state.used.Nodup := by
  refine System.exists_of_run? _ _ (fun state =>
    state.used = [⟨7, .aToB, ⟨1, 0⟩⟩, ⟨7, .aToB, ⟨1, 0⟩⟩] ∧ state.epochs = 2) (by decide +kernel) ?_
  rintro state ran ⟨used, epochs⟩
  refine ⟨System.reachable_of_run? rfl ran, ?_, ?_⟩
  · exact ⟨by rw [epochs]; decide, by rw [used]; decide⟩
  · rw [used]
    decide

end EasyTier.Peers
