import EasyTier.Peers.SessionPair

/-! # What one event does to the two peers

`step?_effect` lists everything an event can do to the entries, to the answers in flight and to the
histories. The results about the two peers are proved from this list alone, without unfolding the
store functions again.
-/

namespace EasyTier.Peers

open Data Packet Tunnel Semantics PeerSessionStore PeerSession PairState

/-- A session goes on: what a sender reads is as before, an invalid session stays invalid, and the
receive slots name only epochs they named before or that were heard. -/
structure Continues (heard : Nat → Prop) (before after : PeerSession) : Prop where
  rootKey : after.rootKey = before.rootKey
  generation : after.sessionGeneration = before.sessionGeneration
  sendEpoch : after.datagram.sendEpoch = before.datagram.sendEpoch
  sendSeq : after.datagram.sendSeq = before.datagram.sendSeq
  sendAlgorithm : after.datagram.sendCipherAlgorithm = before.datagram.sendCipherAlgorithm
  recvAlgorithm : after.datagram.recvCipherAlgorithm = before.datagram.recvCipherAlgorithm
  valid : after.isValid = true → before.isValid = true
  rxEpochs : ∀ dir position, ((after.datagram.rxSlots.get dir).get position).valid = true →
    (∃ origin, ((before.datagram.rxSlots.get dir).get origin).valid = true ∧
      ((after.datagram.rxSlots.get dir).get position).epoch =
        ((before.datagram.rxSlots.get dir).get origin).epoch) ∨
    heard ((after.datagram.rxSlots.get dir).get position).epoch

theorem Continues.of_datagram_eq {heard : Nat → Prop} {before after : PeerSession}
    (datagram : after.datagram = before.datagram)
    (valid : after.isValid = true → before.isValid = true) : Continues heard before after := by
  refine ⟨?_, ?_, ?_, ?_, ?_, ?_, valid, fun dir position inUse => .inl ⟨position, ?_⟩⟩ <;>
    simp_all [PeerSession.rootKey, PeerSession.sessionGeneration]

/-- The recorded static key is the old one or the one given. -/
def Records (pubkey : StaticPubkey) (before after : PeerSession) : Prop :=
  after.peerStaticPubkey = before.peerStaticPubkey ∨ after.peerStaticPubkey = some pubkey

/-- An epoch some side drew a nonce in. -/
def PairState.Heard (state : PairState) (epoch : Nat) : Prop :=
  ∃ use ∈ state.used, use.nonce.epoch = epoch

open PairState

/-- The entry of a side is gone or goes on. -/
def EntryContinues (config : PairConfig) (before after : PairState) (side : Side) : Prop :=
  after.entry config side = none ∨ ∃ session next, before.entry config side = some session ∧
    after.entry config side = some next ∧ Continues before.Heard session next ∧
    Records (config.staticPubkey side.other) session next

variable {before after state : PairState} {config : PairConfig} {side : Side}
  {session : PeerSession}

theorem EntryContinues.of_eq (same : after.entry config side = before.entry config side) :
    EntryContinues config before after side := by
  cases found : before.entry config side with
  | none => exact .inl (same.trans found)
  | some session =>
    exact .inr ⟨session, session, found, same.trans found,
      Continues.of_datagram_eq rfl id, .inl rfl⟩

/-- The histories are as before. -/
structure SameHistory (before after : PairState) : Prop where
  used : after.used = before.used
  rootKeys : after.rootKeys = before.rootKeys
  epochs : after.epochs = before.epochs

/-- The session after it has drawn a nonce of an epoch. -/
def PeerSession.drew (session : PeerSession) (dir : SecureDatagramDirection) (epoch : Nat) :
    PeerSession :=
  { session with datagram := { session.datagram with
    sendEpoch := epoch
    sendSeq := session.datagram.sendSeq.set dir
      ((session.datagram.sendSeq.get dir + 1) % 2 ^ 64) } }

/-- A side draws a nonce of the current or the next epoch from its entry, which goes on. -/
structure Draws (config : PairConfig) (before after : PairState) (side : Side)
    (session next : PeerSession) (epoch : Nat) : Prop where
  stored : before.entry config side = some session
  epochs : epoch = session.datagram.sendEpoch ∨ epoch = (session.datagram.sendEpoch + 1) % 2 ^ 32
  rootKeys : after.rootKeys = before.rootKeys
  msg2s : after.msg2s = before.msg2s
  used : after.used = before.used ++ [⟨session.rootKey, config.sendDir side,
    { epoch := epoch, seq := session.datagram.sendSeq.get (config.sendDir side) }⟩]
  counted : after.epochs = before.epochs + (if epoch = session.datagram.sendEpoch then 0 else 1)
  entry : after.entry config side = some next
  others : after.entry config side.other = before.entry config side.other
  goesOn : Continues before.Heard (session.drew (config.sendDir side) epoch) next

/-- Everything one event can do to the entries, the answers in flight and the histories. -/
inductive PairEffect (config : PairConfig) (before after : PairState) : PairEvent → Prop
  /-- Entries go on or go away; no answer is sent or handled. -/
  | quiet {event : PairEvent} (history : SameHistory before after)
      (msg2s : after.msg2s = before.msg2s)
      (entries : ∀ side, EntryContinues config before after side) :
      PairEffect config before after event
  /-- A responder without a valid entry creates one under a new key. -/
  | created {index : Nat} {newRootKey : RootKey} {nowMs : Nat} {msg1 : Msg1}
      (found : before.msg1s[index]? = some msg1) (unused : newRootKey ∉ before.rootKeys)
      (absent : (before.store msg1.initiator.other).valid? (config.key msg1.initiator.other) = none)
      (used : after.used = before.used)
      (rootKeys : after.rootKeys = before.rootKeys ++ [newRootKey])
      (epochs : after.epochs = before.epochs)
      (msg2s : after.msg2s =
        before.msg2s ++ [⟨msg1.initiator, ⟨.create, 1, some newRootKey, 0⟩⟩])
      (entry : after.entry config msg1.initiator.other =
        some (.new (config.key msg1.initiator.other).peerId newRootKey 1 0
          (config.algorithm msg1.initiator.other) (config.algorithm msg1.initiator) none nowMs))
      (others : after.entry config msg1.initiator = before.entry config msg1.initiator) :
      PairEffect config before after (.respond index newRootKey nowMs)
  /-- A responder answers from its valid entry, which it leaves as it is. -/
  | answered {index : Nat} {newRootKey : RootKey} {nowMs : Nat} {msg1 : Msg1}
      {session : PeerSession} (found : before.msg1s[index]? = some msg1)
      (stored : before.entry config msg1.initiator.other = some session)
      (valid : session.isValid = true)
      (used : after.used = before.used)
      (rootKeys : after.rootKeys = before.rootKeys ++ [newRootKey])
      (entries : ∀ side, after.entry config side = before.entry config side)
      (answer : (msg1.aSessionGeneration = some session.sessionGeneration ∧
          after.epochs = before.epochs ∧ after.msg2s = before.msg2s ++
            [⟨msg1.initiator, ⟨.join, session.sessionGeneration, none, 0⟩⟩]) ∨
        (msg1.aSessionGeneration ≠ some session.sessionGeneration ∧
          after.epochs = before.epochs + 1 ∧ after.msg2s = before.msg2s ++
            [⟨msg1.initiator, ⟨.sync, session.sessionGeneration, some session.rootKey,
              session.nextSyncEpoch⟩⟩])) :
      PairEffect config before after (.respond index newRootKey nowMs)
  /-- An initiator handles an answer without installing a key. -/
  | handled {index nowMs : Nat} {msg2 : Msg2} (found : before.msg2s[index]? = some msg2)
      (history : SameHistory before after) (msg2s : after.msg2s = before.msg2s.eraseIdx index)
      (entries : ∀ side, EntryContinues config before after side)
      (reason : msg2.answer.action = .join ∨ msg2.answer.rootKey = none ∨
        ∃ session error, before.entry config msg2.initiator = some session ∧
          (session.checkEncryptAlgoSame (config.algorithm msg2.initiator)
              (config.algorithm msg2.initiator.other) = .error error ∨
            session.checkOrSetPeerStaticPubkey
              (some (config.staticPubkey msg2.initiator.other)) = .error error)) :
      PairEffect config before after (.finish index nowMs)
  /-- An initiator installs the key of an answer. -/
  | installed {index nowMs : Nat} {msg2 : Msg2} {rootKey : RootKey} {session : PeerSession}
      (found : before.msg2s[index]? = some msg2) (carried : msg2.answer.rootKey = some rootKey)
      (history : SameHistory before after) (msg2s : after.msg2s = before.msg2s.eraseIdx index)
      (entry : after.entry config msg2.initiator = some session)
      (installs : PeerSessionStore.Installs session msg2.answer.sessionGeneration rootKey
        msg2.answer.initialEpoch (config.algorithm msg2.initiator)
        (config.algorithm msg2.initiator.other)
        (some (config.staticPubkey msg2.initiator.other)))
      (others : after.entry config msg2.initiator.other =
        before.entry config msg2.initiator.other) :
      PairEffect config before after (.finish index nowMs)
  /-- A side draws a nonce from its valid entry. -/
  | drawn {side : Side} {packet : ZCPacket} {nowMs : Nat} {session next : PeerSession}
      {epoch : Nat} (valid : session.isValid = true)
      (draws : Draws config before after side session next epoch)
      (recorded : next.peerStaticPubkey = session.peerStaticPubkey) :
      PairEffect config before after (.encrypt side packet nowMs)

/-- Receiving a deliverable packet goes on with the session. -/
theorem continues_decryptPayload {packet : ZCPacket} {nowMs : Nat}
    (deliverable : state.Deliverable config side session packet nowMs) :
    Continues state.Heard session (session.decryptPayload config.primitives
      (config.peerId side.other) (config.peerId side) packet nowMs).2 := by
  unfold PairState.Deliverable decryptPayload at *
  cases valid : session.isValid with
  | false => exact Continues.of_datagram_eq rfl (fun isValid => by simp_all)
  | true =>
    simp only [valid, Bool.not_true, Bool.false_eq_true, if_false] at deliverable ⊢
    generalize dirForSender (config.peerId side.other) (config.peerId side) = dir at *
    have rxEpochs := session.datagram.rxEpochs_decryptPayload config.primitives dir packet nowMs
    obtain ⟨rxSlots, keyCache, grace, expires, invalidated, count, frame⟩ :=
      (session.datagram.decryptPayload_cases config.primitives dir packet nowMs).1
    refine ⟨?_, ?_, ?_, ?_, ?_, ?_, fun _ => valid, fun other position inUse => ?_⟩
    · simp [rootKey, frame]
    · simp [sessionGeneration, frame]
    · simp [frame]
    · simp [frame]
    · simp [frame]
    · simp [frame]
    · rcases rxEpochs other position inUse with known | ⟨plain, nonce, accepted, parsed, epoch⟩
      · exact .inl known
      · right
        rcases deliverable with drawn | refused
        · obtain ⟨use, member, _, sameNonce⟩ := drawn nonce parsed
          exact ⟨use, member, by rw [sameNonce]; exact epoch.symm⟩
        · rw [accepted] at refused
          cases refused

theorem EntryContinues.of_keeps {store : PeerSessionStore}
    (keeps : PeerSessionStore.KeepsEntry (before.store side) store (config.key side)
      (some (config.staticPubkey side.other)))
    (entry : after.entry config side = store (config.key side)) :
    EntryContinues config before after side := by
  rcases keeps with gone | ⟨session, recorded, stored, kept, origin⟩
  · exact .inl (entry.trans gone)
  · exact .inr ⟨session, _, stored, entry.trans kept, Continues.of_datagram_eq rfl id, origin⟩

theorem start_effect (config : PairConfig) (state : PairState) (initiator : Side) (hinted : Bool) :
    PairEffect config state (state.start config initiator hinted) (.start initiator hinted) := by
  unfold start
  cases hinted with
  | false =>
    exact .quiet ⟨rfl, rfl, rfl⟩ rfl fun side => EntryContinues.of_eq rfl
  | true =>
    refine .quiet ⟨rfl, rfl, rfl⟩ rfl fun side => ?_
    by_cases same : side = initiator
    · subst same
      rcases (state.store side).get_entry (config.key side) with gone | kept
      · exact .inl (by simpa [entry, setStore] using gone)
      · exact EntryContinues.of_eq (by simpa [entry, setStore] using kept)
    · exact EntryContinues.of_eq (by simp [entry, setStore, same])

/-- A step that only writes one entry, with a session that goes on from the stored one. -/
theorem quiet_setEntry {written : Side} {next : PeerSession} {event : PairEvent}
    (stored : state.entry config written = some session)
    (goesOn : Continues state.Heard session next)
    (records : Records (config.staticPubkey written.other) session next) :
    PairEffect config state (state.setEntry config written next) event := by
  refine .quiet ⟨rfl, rfl, rfl⟩ rfl fun side => ?_
  by_cases same : side = written
  · subst same
    exact .inr ⟨session, next, stored, by simp, goesOn, records⟩
  · exact EntryContinues.of_eq (by simp [same])

theorem confirm_effect {responder : Side} (stored : state.entry config responder = some session) :
    PairEffect config state (state.confirm config responder session) (.confirm responder) := by
  unfold confirm
  split
  · rename_i recorded passed
    obtain ⟨_, rfl, origin⟩ := checkOrSetPeerStaticPubkey_frame passed
    exact quiet_setEntry stored (Continues.of_datagram_eq rfl id) origin
  · exact .quiet ⟨rfl, rfl, rfl⟩ rfl fun side => EntryContinues.of_eq rfl

theorem decrypt_effect {packet : ZCPacket} {nowMs : Nat}
    (stored : state.entry config side = some session)
    (deliverable : state.Deliverable config side session packet nowMs) :
    PairEffect config state (state.decrypt config side session packet nowMs)
      (.decrypt side packet nowMs) := by
  refine quiet_setEntry stored (continues_decryptPayload deliverable) (.inl ?_)
  unfold decryptPayload
  split <;> rfl

theorem invalidate_effect (stored : state.entry config side = some session) :
    PairEffect config state (state.setEntry config side session.invalidate)
      (.invalidate side) := by
  refine quiet_setEntry stored ⟨rfl, rfl, rfl, rfl, rfl, rfl, ?_, ?_⟩ (.inl rfl)
  · intro valid
    simp [isValid, invalidate] at valid
  · intro dir position inUse
    exact .inl ⟨position, inUse, rfl⟩

theorem dropEntry_effect (config : PairConfig) (state : PairState) (side : Side) :
    PairEffect config state (state.setStore side ((state.store side).remove (config.key side)))
      (.dropEntry side) := by
  refine .quiet ⟨rfl, rfl, rfl⟩ rfl fun other => ?_
  by_cases same : other = side
  · subst same
    exact .inl (by simp [remove])
  · exact EntryContinues.of_eq (by simp [same])

theorem respond_effect {index : Nat} {msg1 : Msg1}
    {newRootKey : RootKey} (found : state.msg1s[index]? = some msg1)
    (unused : newRootKey ∉ state.rootKeys) (nowMs : Nat) :
    PairEffect config state (state.respond config index msg1 newRootKey nowMs)
      (.respond index newRootKey nowMs) := by
  have notSelf : msg1.initiator ≠ msg1.initiator.other := by
    cases msg1.initiator <;> simp [Side.other]
  unfold respond
  dsimp only
  rcases (state.store msg1.initiator.other).upsertResponderSession_cases
      (config.key msg1.initiator.other) msg1.aSessionGeneration
      (config.algorithm msg1.initiator.other) (config.algorithm msg1.initiator) none newRootKey
      nowMs with
    ⟨error, refused⟩ | ⟨absent, created⟩ | ⟨session, recorded, present, _, passed, answered⟩
  · rw [refused]
    refine .quiet ⟨rfl, rfl, rfl⟩ rfl fun side => EntryContinues.of_eq ?_
    simp [entry, setStore]
  · rw [created]
    refine .created found unused absent rfl rfl rfl rfl ?_ ?_
    · simp [entry, setStore]
    · simp [entry, setStore, notSelf]
  · have sameSession : { session with peerStaticPubkey := recorded } = session := by
      simpa [checkOrSetPeerStaticPubkey] using passed.symm
    obtain ⟨stored, valid⟩ := valid?_eq_some.mp present
    rw [answered, sameSession, insert_eq_self stored]
    have entries : ∀ side, ({ state.setStore msg1.initiator.other
        (state.store msg1.initiator.other) with msg1s := state.msg1s.eraseIdx index } :
        PairState).entry config side = state.entry config side := by
      simp [entry, setStore]
    by_cases same : msg1.aSessionGeneration = some session.sessionGeneration
    · simp only [same, if_true]
      exact .answered found stored valid rfl rfl entries (.inl ⟨same, rfl, rfl⟩)
    · simp only [same, if_false]
      exact .answered found stored valid rfl rfl entries (.inr ⟨same, rfl, rfl⟩)

theorem finish_effect {index : Nat} {msg2 : Msg2}
    (found : state.msg2s[index]? = some msg2) (nowMs : Nat) :
    PairEffect config state (state.finish config index msg2 nowMs) (.finish index nowMs) := by
  have notSelf : msg2.initiator.other ≠ msg2.initiator := by
    cases msg2.initiator <;> simp [Side.other]
  have otherEntry : ∀ side, side ≠ msg2.initiator →
      (state.finish config index msg2 nowMs).entry config side = state.entry config side := by
    intro side apart
    simp [finish, entry, setStore, apart]
  have ownEntry : (state.finish config index msg2 nowMs).entry config msg2.initiator =
      (state.applyAnswer config msg2 nowMs).2 (config.key msg2.initiator) := by
    simp [finish, entry, setStore]
  have entries : PeerSessionStore.KeepsEntry (state.store msg2.initiator)
      (state.applyAnswer config msg2 nowMs).2 (config.key msg2.initiator)
      (some (config.staticPubkey msg2.initiator.other)) →
      ∀ side, EntryContinues config state (state.finish config index msg2 nowMs) side := by
    intro keeps side
    by_cases same : side = msg2.initiator
    · subst same
      exact EntryContinues.of_keeps keeps ownEntry
    · exact EntryContinues.of_eq (otherEntry side same)
  have install : ∀ rootKey preserve, msg2.answer.rootKey = some rootKey →
      state.applyAnswer config msg2 nowMs = (state.store msg2.initiator).applyRootKey
        (config.key msg2.initiator) preserve msg2.answer.sessionGeneration rootKey
        msg2.answer.initialEpoch (config.algorithm msg2.initiator)
        (config.algorithm msg2.initiator.other)
        (some (config.staticPubkey msg2.initiator.other)) nowMs →
      PairEffect config state (state.finish config index msg2 nowMs) (.finish index nowMs) := by
    intro rootKey preserve carried applied
    rcases (state.store msg2.initiator).applyRootKey_cases (config.key msg2.initiator) preserve
        msg2.answer.sessionGeneration rootKey msg2.answer.initialEpoch
        (config.algorithm msg2.initiator) (config.algorithm msg2.initiator.other)
        (some (config.staticPubkey msg2.initiator.other)) nowMs with
      ⟨error, session, present, why, refused⟩ | ⟨session, installs, _, done⟩
    · rw [refused] at applied
      refine .handled found ⟨rfl, rfl, rfl⟩ rfl (entries (.of_eq (by rw [applied]) _)) ?_
      exact .inr (.inr ⟨session, error, (valid?_eq_some.mp present).1, why⟩)
    · rw [done] at applied
      refine .installed found carried ⟨rfl, rfl, rfl⟩ rfl ?_ installs (otherEntry _ notSelf)
      rw [ownEntry, applied]
      exact insert_self _ _ _
  cases action : msg2.answer.action with
  | join =>
    have applied : state.applyAnswer config msg2 nowMs = (state.store msg2.initiator).applyJoin
        (config.key msg2.initiator) msg2.answer.sessionGeneration
        (config.algorithm msg2.initiator) (config.algorithm msg2.initiator.other)
        (some (config.staticPubkey msg2.initiator.other)) := by
      simp [applyAnswer, applyInitiatorAction, action]
    refine .handled found ⟨rfl, rfl, rfl⟩ rfl (entries ?_) (.inl action)
    rw [applied]
    exact (applyJoin_cases _ _ _ _ _ _).1
  | sync | create =>
    cases carried : msg2.answer.rootKey with
    | none =>
      refine .handled found ⟨rfl, rfl, rfl⟩ rfl (entries (.of_eq ?_ _)) (.inr (.inl carried))
      simp [applyAnswer, applyInitiatorAction, action, carried]
    | some rootKey =>
      refine install rootKey (decide (msg2.answer.action = .sync)) carried ?_
      simp [applyAnswer, applyInitiatorAction, action, carried]

theorem encrypt_effect (stored : state.entry config side = some session)
    (valid : session.isValid = true) (packet : ZCPacket) (nowMs : Nat) :
    PairEffect config state (state.encrypt config side session packet nowMs)
      (.encrypt side packet nowMs) := by
  have notSelf : side.other ≠ side := by
    cases side <;> simp [Side.other]
  have datagramValid : session.datagram.isValid = true := by
    simp only [isValid, Bool.and_eq_true] at valid
    exact valid.2
  obtain ⟨epoch, startedMs, packets, epochs, drawn⟩ :=
    session.datagram.nextNonce_cases (config.sendDir side) nowMs
  obtain ⟨keyCache, invalidated, frame⟩ := session.datagram.encryptPayload_frame config.primitives
    datagramValid (config.sendDir side) packet nowMs
  rw [drawn] at frame
  have entry : (state.encrypt config side session packet nowMs).entry config side =
      some (session.encryptPayload config.primitives (config.peerId side)
        (config.peerId side.other) packet nowMs).2 := by
    simp [encrypt, setEntry, setStore, entry]
  refine .drawn valid ⟨stored, epochs, rfl, rfl, ?_, ?_, entry, ?_, ?_⟩ ?_
  · simp [encrypt, drawn]
  · simp [encrypt, drawn]
  · simp [PairState.encrypt, PairState.setEntry, PairState.setStore, PairState.entry, notSelf]
  · unfold encryptPayload PeerSession.drew
    simp only [valid, Bool.not_true, Bool.false_eq_true, if_false]
    have sameDir : dirForSender (config.peerId side) (config.peerId side.other) =
      config.sendDir side := rfl
    rw [sameDir]
    refine ⟨?_, ?_, ?_, ?_, ?_, ?_, fun _ => valid, fun dir position inUse => .inl ⟨position, ?_⟩⟩
    · simp [rootKey, frame]
    · simp [sessionGeneration, frame]
    · simp [frame]
    · simp [frame]
    · simp [frame]
    · simp [frame]
    · simpa [frame] using inUse
  · unfold encryptPayload
    split <;> rfl

/-- Every step of the system has one of the listed effects. -/
theorem step?_effect {event : PairEvent} (transition : before.step? config event = some after) :
    PairEffect config before after event := by
  cases event with
  | start initiator hinted =>
    cases transition
    exact start_effect config before initiator hinted
  | respond index newRootKey nowMs =>
    simp only [step?] at transition
    split at transition
    · cases transition
    rename_i found
    split at transition
    · cases transition
    rename_i unused
    cases transition
    exact respond_effect found unused nowMs
  | finish index nowMs =>
    obtain ⟨msg2, found, rfl⟩ := Option.map_eq_some_iff.mp transition
    exact finish_effect found nowMs
  | confirm responder =>
    obtain ⟨session, stored, rfl⟩ := Option.map_eq_some_iff.mp transition
    exact confirm_effect stored
  | encrypt side packet nowMs =>
    obtain ⟨session, present, rfl⟩ := Option.map_eq_some_iff.mp transition
    obtain ⟨stored, valid⟩ := Option.filter_eq_some_iff.mp present
    exact encrypt_effect stored valid packet nowMs
  | decrypt side packet nowMs =>
    simp only [step?] at transition
    split at transition
    · cases transition
    rename_i session stored
    split at transition
    · rename_i deliverable
      cases transition
      exact decrypt_effect stored deliverable
    · cases transition
  | invalidate side =>
    obtain ⟨session, stored, rfl⟩ := Option.map_eq_some_iff.mp transition
    exact invalidate_effect stored
  | dropEntry side =>
    cases transition
    exact dropEntry_effect config before side

end EasyTier.Peers
