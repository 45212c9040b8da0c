import EasyTier.Peers.PairEffects

/-! # Agreement on the root key

A responder without a valid entry draws a new key, and an initiator replaces its key by the one
that is answered. When both sides do so for each other at once, each ends with the key the other
one drew; a later Join then compares generations only, which are equal. The two sides agree as
long as an answer is given only when no other key is on its way.
-/

namespace EasyTier.Peers

open Data Packet Tunnel Semantics System PeerSession PeerSessionStore

namespace PairState

variable (state : PairState)

/-- Every started handshake has delivered its second message. -/
def AllDelivered : Prop := state.msg1s = [] ∧ state.msg2s = []

instance : Decidable state.AllDelivered := inferInstanceAs (Decidable (_ ∧ _))

/-- No answer in flight carries another key than the given one. -/
def OnlyCarries (rootKey : RootKey) : Prop :=
  ∀ msg2 ∈ state.msg2s, msg2.answer.rootKey = none ∨ msg2.answer.rootKey = some rootKey

/-- No key is on its way to a side. -/
def NoneCarriedTo (side : Side) : Prop :=
  ∀ msg2 ∈ state.msg2s, msg2.initiator = side → msg2.answer.rootKey = none

/-- A new key is drawn only when no answer is in flight. A valid entry is answered from only when
no other key is in flight, and joined only when no key is on its way to the initiator. -/
def AnswersSettled (config : PairConfig) (state : PairState) : PairEvent → Prop
  | .respond index _ _ =>
    ∀ msg1 ∈ state.msg1s[index]?,
      match (state.store msg1.initiator.other).valid? (config.key msg1.initiator.other) with
      | none => state.msg2s = []
      | some session => state.OnlyCarries session.rootKey ∧
          (msg1.aSessionGeneration = some session.sessionGeneration →
            state.NoneCarriedTo msg1.initiator)
  | _ => True

instance (rootKey : RootKey) : Decidable (state.OnlyCarries rootKey) :=
  inferInstanceAs (Decidable (∀ msg2 ∈ state.msg2s, _))

instance (side : Side) : Decidable (state.NoneCarriedTo side) :=
  inferInstanceAs (Decidable (∀ msg2 ∈ state.msg2s, _))

instance (config : PairConfig) (state : PairState) (msg1 : Msg1) :
    Decidable (match (state.store msg1.initiator.other).valid?
        (config.key msg1.initiator.other) with
      | none => state.msg2s = []
      | some session => state.OnlyCarries session.rootKey ∧
          (msg1.aSessionGeneration = some session.sessionGeneration →
            state.NoneCarriedTo msg1.initiator)) :=
  match (state.store msg1.initiator.other).valid? (config.key msg1.initiator.other) with
  | none => inferInstanceAs (Decidable (state.msg2s = []))
  | some _ => inferInstanceAs (Decidable (_ ∧ (_ → _)))

instance (config : PairConfig) (state : PairState) (event : PairEvent) :
    Decidable (state.AnswersSettled config event) := by
  unfold AnswersSettled
  cases_type PairEvent <;> infer_instance

end PairState

/-- A valid session a side holds for the other. -/
def PairState.Holds (config : PairConfig) (state : PairState) (side : Side)
    (session : PeerSession) : Prop :=
  state.entry config side = some session ∧ session.isValid = true

/-- The two sides hold the same key for each other. -/
def PairState.SameKey (config : PairConfig) (state : PairState) : Prop :=
  ∀ own theirs, state.Holds config .left own → state.Holds config .right theirs →
    own.rootKey = theirs.rootKey

/-- An initiator that would accept a Join now holds the responder's key. -/
def PairState.JoinsSameKey (config : PairConfig) (state : PairState) : Prop :=
  ∀ msg2 ∈ state.msg2s, msg2.answer.action = .join → ∀ nowMs,
    (state.applyAnswer config msg2 nowMs).1 = .ok () →
      ∃ own, state.Holds config msg2.initiator own ∧
        own.sessionGeneration = msg2.answer.sessionGeneration ∧
        ∀ theirs, state.Holds config msg2.initiator.other theirs → own.rootKey = theirs.rootKey

/-! ## Entries as configured -/

/-- A session whose algorithms and recorded key are those the two sides are configured with. -/
structure Configured (config : PairConfig) (side : Side) (session : PeerSession) : Prop where
  algorithms : session.checkEncryptAlgoSame (config.algorithm side) (config.algorithm side.other) =
    .ok ()
  pubkey : session.peerStaticPubkey = none ∨
    session.peerStaticPubkey = some (config.staticPubkey side.other)

variable {config : PairConfig} {side : Side} {session : PeerSession}
  {before after state : PairState} {rootKey : RootKey}

theorem Configured.continues {heard : Nat → Prop}
    {next : PeerSession} (configured : Configured config side session)
    (goesOn : Continues heard session next)
    (records : Records (config.staticPubkey side.other) session next) :
    Configured config side next := by
  constructor
  · have algorithms := configured.algorithms
    simp only [checkEncryptAlgoSame, SecureDatagramSession.checkEncryptAlgoSame,
      goesOn.sendAlgorithm, goesOn.recvAlgorithm] at algorithms ⊢
    exact algorithms
  · rcases records with same | recorded
    · rw [same]
      exact configured.pubkey
    · exact .inr recorded

/-- The checks on an answer never fail at a configured entry. -/
theorem Configured.passes (configured : Configured config side session) (error : SessionError) :
    session.checkEncryptAlgoSame (config.algorithm side) (config.algorithm side.other) ≠
        .error error ∧
      session.checkOrSetPeerStaticPubkey (some (config.staticPubkey side.other)) ≠
        .error error := by
  constructor
  · rw [configured.algorithms]
    nofun
  · unfold checkOrSetPeerStaticPubkey
    rcases configured.pubkey with absent | recorded
    · rw [absent]
      nofun
    · rw [recorded]
      simp

/-- Every entry is as configured. -/
def EntriesConfigured (config : PairConfig) (state : PairState) : Prop :=
  ∀ side session, state.entry config side = some session → Configured config side session

theorem EntriesConfigured.continue (configured : EntriesConfigured config before)
    (entries : ∀ side, EntryContinues config before after side) :
    EntriesConfigured config after := by
  intro side next stored
  rcases entries side with gone | ⟨session, kept, found, now, goesOn, records⟩
  · rw [gone] at stored
    cases stored
  · rw [now] at stored
    cases stored
    exact (configured side session found).continues goesOn records

theorem EntriesConfigured.step {event : PairEvent} (configured : EntriesConfigured config before)
    (effect : PairEffect config before after event) : EntriesConfigured config after := by
  cases effect with
  | quiet _ _ entries => exact configured.continue entries
  | handled _ _ _ entries _ => exact configured.continue entries
  | answered _ _ _ _ _ entries _ =>
    exact configured.continue fun side => EntryContinues.of_eq (entries side)
  | @created _ _ _ msg1 _ _ _ _ _ _ _ entry others =>
    intro side session stored
    rcases side.eq_or_eq_other msg1.initiator with rfl | rfl
    · rw [others] at stored
      exact configured _ _ stored
    · rw [entry] at stored
      cases stored
      refine ⟨?_, .inl rfl⟩
      simp [checkEncryptAlgoSame, SecureDatagramSession.checkEncryptAlgoSame,
        new, SecureDatagramSession.new]
  | @installed _ _ msg2 _ _ _ _ _ _ entry installs others =>
    intro side session stored
    rcases side.eq_or_eq_other msg2.initiator with rfl | rfl
    · rw [entry] at stored
      cases stored
      exact ⟨installs.algorithms, .inr (checkOrSetPeerStaticPubkey_some installs.pubkey)⟩
    · rw [others] at stored
      exact configured _ _ stored
  | @drawn drawer _ _ session _ _ _ draws recorded =>
    intro side other stored
    rcases side.eq_or_eq_other drawer with rfl | rfl
    · rw [draws.entry] at stored
      cases stored
      have own := configured side session draws.stored
      refine Configured.continues ?_ draws.goesOn (.inl recorded)
      exact ⟨own.algorithms, own.pubkey⟩
    · rw [draws.others] at stored
      exact configured _ _ stored

/-! ## The key in force -/

/-- Removing one answer leaves the others in flight. -/
theorem mem_eraseIdx_of_ne {α : Type} {entries : List α} {index : Nat} {removed other : α}
    (found : entries[index]? = some removed) (member : other ∈ entries) (apart : other ≠ removed) :
    other ∈ entries.eraseIdx index := by
  obtain ⟨position, bound, rfl⟩ := List.getElem_of_mem member
  rw [List.mem_eraseIdx_iff_getElem]
  refine ⟨position, bound, ?_, rfl⟩
  rintro rfl
  rw [List.getElem?_eq_getElem bound] at found
  exact apart (Option.some.inj found)

/-- Every key in flight is the one in force, and a side that holds another one is about to receive
it. Nobody holds another one while a Join is in flight. -/
structure InForce (config : PairConfig) (state : PairState) (rootKey : RootKey) : Prop where
  carried : state.OnlyCarries rootKey
  held : ∀ side session, state.Holds config side session → session.rootKey = rootKey ∨
    ∃ msg2 ∈ state.msg2s, msg2.initiator = side ∧ msg2.answer.rootKey = some rootKey
  joining : ∀ msg2 ∈ state.msg2s, msg2.answer.action = .join → msg2.answer.rootKey = none ∧
    ∀ side session, state.Holds config side session → session.rootKey = rootKey

/-- A side holds no key it did not hold before. -/
def HoldsNoNewKey (config : PairConfig) (before after : PairState) : Prop :=
  ∀ side session, after.Holds config side session →
    ∃ earlier, before.Holds config side earlier ∧ session.rootKey = earlier.rootKey

theorem HoldsNoNewKey.of_continues (entries : ∀ side, EntryContinues config before after side) :
    HoldsNoNewKey config before after := by
  rintro side session ⟨stored, valid⟩
  rcases entries side with gone | ⟨earlier, kept, found, now, goesOn, _⟩
  · rw [gone] at stored
    cases stored
  · rw [now] at stored
    cases stored
    exact ⟨earlier, ⟨found, goesOn.valid valid⟩, goesOn.rootKey⟩

/-- The key stays in force when nobody gets a new one and only answers without a key go away. -/
theorem InForce.keep
    (inForce : InForce config before rootKey) (holds : HoldsNoNewKey config before after)
    (fewer : after.msg2s ⊆ before.msg2s)
    (carriers : ∀ msg2 ∈ before.msg2s, msg2.answer.rootKey = some rootKey → msg2 ∈ after.msg2s) :
    InForce config after rootKey where
  carried msg2 member := inForce.carried msg2 (fewer member)
  held side session holding := by
    obtain ⟨earlier, held, same⟩ := holds side session holding
    rw [same]
    rcases inForce.held side earlier held with current | ⟨msg2, member, toSide, carries⟩
    · exact .inl current
    · exact .inr ⟨msg2, carriers msg2 member carries, toSide, carries⟩
  joining msg2 member action := by
    obtain ⟨carriesNone, settled⟩ := inForce.joining msg2 (fewer member) action
    refine ⟨carriesNone, fun side session holding => ?_⟩
    obtain ⟨earlier, held, same⟩ := holds side session holding
    rw [same, settled side earlier held]

/-- The answer of a responder whose key is the only one in flight carries the key in force. -/
theorem InForce.eq_of_onlyCarries (inForce : InForce config state rootKey)
    (holding : state.Holds config side session) (only : state.OnlyCarries session.rootKey) :
    session.rootKey = rootKey := by
  rcases inForce.held side session holding with current | ⟨msg2, member, _, carries⟩
  · exact current
  · rcases only msg2 member with nothing | own
    · rw [nothing] at carries
      cases carries
    · rw [own] at carries
      exact Option.some.inj carries

/-- Answering from an entry leaves the key in force. -/
theorem InForce.answered (inForce : InForce config before rootKey) {answered : Msg2}
    (entries : ∀ side, after.entry config side = before.entry config side)
    (msg2s : after.msg2s = before.msg2s ++ [answered])
    (carried : answered.answer.rootKey = none ∨ answered.answer.rootKey = some rootKey)
    (joining : answered.answer.action = .join → answered.answer.rootKey = none ∧
      ∀ side session, before.Holds config side session → session.rootKey = rootKey) :
    InForce config after rootKey := by
  have same : ∀ side session, after.Holds config side session → before.Holds config side session :=
    fun side session holding => ⟨(entries side) ▸ holding.1, holding.2⟩
  refine ⟨fun msg2 member => ?_, fun side session holding => ?_, fun msg2 member action => ?_⟩
  · rw [msg2s, List.mem_append, List.mem_singleton] at member
    rcases member with old | rfl
    · exact inForce.carried msg2 old
    · exact carried
  · rcases inForce.held side session (same side session holding) with
      current | ⟨msg2, member, carrier⟩
    · exact .inl current
    · refine .inr ⟨msg2, ?_, carrier⟩
      rw [msg2s]
      exact List.mem_append_left _ member
  · rw [msg2s, List.mem_append, List.mem_singleton] at member
    have settled : msg2.answer.rootKey = none ∧
        ∀ side session, before.Holds config side session → session.rootKey = rootKey := by
      rcases member with old | rfl
      · exact inForce.joining msg2 old action
      · exact joining action
    exact ⟨settled.1, fun side session holding =>
      settled.2 side session (same side session holding)⟩

/-- Installing a key that was carried leaves it in force. -/
theorem InForce.installed (inForce : InForce config before rootKey) {index : Nat} {msg2 : Msg2}
    (found : before.msg2s[index]? = some msg2) (installs : session.rootKey = rootKey)
    (msg2s : after.msg2s = before.msg2s.eraseIdx index)
    (entry : after.entry config msg2.initiator = some session)
    (others : after.entry config msg2.initiator.other = before.entry config msg2.initiator.other) :
    InForce config after rootKey := by
  have fewer : after.msg2s ⊆ before.msg2s := by
    rw [msg2s]
    exact List.eraseIdx_subset
  -- the initiator holds the installed key, the responder what it held before
  have holders : ∀ side holding, after.Holds config side holding → holding.rootKey = rootKey ∨
      side = msg2.initiator.other ∧ before.Holds config side holding := by
    rintro side holding ⟨stored, valid⟩
    rcases side.eq_or_eq_other msg2.initiator with rfl | rfl
    · rw [entry] at stored
      cases stored
      exact .inl installs
    · rw [others] at stored
      exact .inr ⟨rfl, stored, valid⟩
  refine ⟨fun other member => inForce.carried other (fewer member), fun side holding held => ?_,
    fun other member action => ?_⟩
  · rcases holders side holding held with current | ⟨rfl, earlier⟩
    · exact .inl current
    · rcases inForce.held _ _ earlier with current | ⟨carrier, member, toOther, carries⟩
      · exact .inl current
      · refine .inr ⟨carrier, ?_, toOther, carries⟩
        rw [msg2s]
        refine mem_eraseIdx_of_ne found member fun same => ?_
        rw [← same] at toOther
        cases toSelf : carrier.initiator <;> simp [toSelf, Side.other] at toOther
  · obtain ⟨carriesNone, settled⟩ := inForce.joining other (fewer member) action
    refine ⟨carriesNone, fun side holding held => ?_⟩
    rcases holders side holding held with current | ⟨_, earlier⟩
    · exact current
    · exact settled side holding earlier

/-- A new key, drawn while nothing is in flight, comes into force. -/
theorem inForce_created {initiator : Side}
    (msg2s : after.msg2s = [⟨initiator, ⟨.create, 1, some rootKey, 0⟩⟩])
    (entry : after.entry config initiator.other = some session)
    (drawn : session.rootKey = rootKey) : InForce config after rootKey := by
  have only : ∀ msg2 ∈ after.msg2s, msg2 = ⟨initiator, ⟨.create, 1, some rootKey, 0⟩⟩ := by
    intro msg2 member
    rw [msg2s] at member
    exact List.mem_singleton.mp member
  refine ⟨fun msg2 member => ?_, fun side holding held => ?_, fun msg2 member action => ?_⟩
  · rw [only msg2 member]
    exact .inr rfl
  · rcases side.eq_or_eq_other initiator with rfl | rfl
    · refine .inr ⟨⟨side, ⟨.create, 1, some rootKey, 0⟩⟩, ?_, rfl, rfl⟩
      rw [msg2s]
      exact List.mem_singleton_self _
    · have same := held.1
      rw [entry] at same
      cases same
      exact .inl drawn
  · rw [only msg2 member] at action
    cases action

/-- Some key is in force. -/
def Agreed (config : PairConfig) (state : PairState) : Prop :=
  ∃ rootKey, InForce config state rootKey

theorem Agreed.step {event : PairEvent}
    (agreed : Agreed config before) (configured : EntriesConfigured config before)
    (settled : before.AnswersSettled config event)
    (effect : PairEffect config before after event) : Agreed config after := by
  obtain ⟨rootKey, inForce⟩ := agreed
  cases effect with
  | quiet _ msg2s entries =>
    refine ⟨rootKey, inForce.keep (.of_continues entries) ?_ ?_⟩
    · rw [msg2s]
      exact List.Subset.refl _
    · rw [msg2s]
      exact fun _ member _ => member
  | created found _ absent _ _ _ msg2s entry _ =>
    have settled := settled _ found
    rw [absent] at settled
    rw [settled, List.nil_append] at msg2s
    exact ⟨_, inForce_created msg2s entry rfl⟩
  | answered found stored valid _ _ entries answer =>
    have settled := settled _ found
    rw [valid?_eq_some.mpr ⟨stored, valid⟩] at settled
    obtain ⟨only, joins⟩ := settled
    have current := inForce.eq_of_onlyCarries ⟨stored, valid⟩ only
    rcases answer with ⟨sameGeneration, _, msg2s⟩ | ⟨_, _, msg2s⟩
    · refine ⟨rootKey, inForce.answered entries msg2s (.inl rfl) fun _ => ⟨rfl, ?_⟩⟩
      intro side session holding
      rcases inForce.held side session holding with same | ⟨msg2, member, toSide, carries⟩
      · exact same
      · -- a key on its way goes to the responder, whose own key is in force
        rcases side.eq_or_eq_other _ with toInitiator | toResponder
        · rw [joins sameGeneration msg2 member (toSide.trans toInitiator)] at carries
          cases carries
        · rw [toResponder] at holding
          have same := holding.1.symm.trans stored
          cases same
          exact current
    · refine ⟨rootKey, inForce.answered entries msg2s (.inr ?_) nofun⟩
      rw [current]
  | @handled index _ msg2 found _ msg2s entries reason =>
    have carriesNone : msg2.answer.rootKey = none := by
      rcases reason with joins | none | ⟨session, error, stored, algorithms | pubkey⟩
      · exact (inForce.joining msg2 (List.mem_of_getElem? found) joins).1
      · exact none
      · exact absurd algorithms ((configured _ _ stored).passes error).1
      · exact absurd pubkey ((configured _ _ stored).passes error).2
    refine ⟨rootKey, inForce.keep (.of_continues entries) ?_ ?_⟩
    · rw [msg2s]
      exact List.eraseIdx_subset
    · intro other member carries
      rw [msg2s]
      refine mem_eraseIdx_of_ne found member fun same => ?_
      rw [same, carriesNone] at carries
      cases carries
  | @installed _ _ msg2 answered _ found carried _ msg2s entry installs others =>
    have current : answered = rootKey := by
      rcases inForce.carried msg2 (List.mem_of_getElem? found) with nothing | same
      · rw [carried] at nothing
        cases nothing
      · exact Option.some.inj (carried.symm.trans same)
    exact ⟨rootKey, inForce.installed found (installs.rootKey.trans current) msg2s entry others⟩
  | @drawn side _ _ session _ _ valid draws _ =>
    refine ⟨rootKey, inForce.keep ?_ ?_ ?_⟩
    · rintro other holding ⟨found, stillValid⟩
      rcases other.eq_or_eq_other side with rfl | rfl
      · rw [draws.entry] at found
        cases found
        exact ⟨session, ⟨draws.stored, valid⟩, draws.goesOn.rootKey⟩
      · rw [draws.others] at found
        exact ⟨holding, ⟨found, stillValid⟩, rfl⟩
    · rw [draws.msg2s]
      exact List.Subset.refl _
    · rw [draws.msg2s]
      exact fun _ member _ => member

/-- With nothing in flight, a key in force is everybody's key. -/
theorem InForce.sameKey (inForce : InForce config state rootKey) (delivered : state.AllDelivered) :
    state.SameKey config := by
  have current : ∀ side session, state.Holds config side session →
      session.rootKey = rootKey := by
    intro side session holding
    rcases inForce.held side session holding with same | ⟨msg2, member, _⟩
    · exact same
    · rw [delivered.2] at member
      cases member
  intro own theirs holding otherHolding
  rw [current .left own holding, current .right theirs otherHolding]

theorem InForce.joinsSameKey
    (inForce : InForce config state rootKey) : state.JoinsSameKey config := by
  intro msg2 member action nowMs accepted
  obtain ⟨_, current⟩ := inForce.joining msg2 member action
  have joined := (applyJoin_cases (state.store msg2.initiator)
    (config.key msg2.initiator) msg2.answer.sessionGeneration (config.algorithm msg2.initiator)
    (config.algorithm msg2.initiator.other)
    (some (config.staticPubkey msg2.initiator.other))).2
  simp only [PairState.applyAnswer, applyInitiatorAction, action] at accepted
  obtain ⟨own, present, generation⟩ := joined accepted
  have holding : state.Holds config msg2.initiator own := valid?_eq_some.mp present
  refine ⟨own, holding, generation, fun theirs otherHolding => ?_⟩
  rw [current _ own holding, current _ theirs otherHolding]

/-- In every run in which answers are given only when no other key is on its way, the two sides
hold the same key once everything is delivered, and an initiator that accepts a Join holds the
responder's key. -/
theorem rootKeys_agree_of_answersSettled (config : PairConfig) {state : PairState}
    (reached : (pairSystem config).ReachableUnder (PairState.AnswersSettled config) state) :
    (state.AllDelivered → state.SameKey config) ∧ state.JoinsSameKey config := by
  have invariant : Agreed config state ∧ EntriesConfigured config state := by
    refine reached.invariant
      (motive := fun state => Agreed config state ∧ EntriesConfigured config state) ?_ ?_
    · rintro _ rfl
      refine ⟨⟨0, nofun, fun _ _ holding => ?_, nofun⟩, fun _ _ stored => ?_⟩
      · cases holding.1
      cases stored
    · intro before event after holds settled transition
      have effect := step?_effect transition
      exact ⟨holds.1.step holds.2 settled effect, holds.2.step effect⟩
  obtain ⟨⟨rootKey, inForce⟩, _⟩ := invariant
  exact ⟨inForce.sameKey, inForce.joinsSameKey⟩

/-- The keys of the valid sessions the two sides hold. -/
private def heldKeys (state : PairState) : Option RootKey × Option RootKey :=
  (((state.entry .twoPeers .left).filter (·.isValid)).map (·.rootKey),
    ((state.entry .twoPeers .right).filter (·.isValid)).map (·.rootKey))

/-- The left side dials twice at once, then the right side dials back and joins. -/
private def settledRun : List PairEvent :=
  [.start .left false, .start .left false, .respond 0 7 1000, .respond 0 8 1001, .finish 1 1002,
    .finish 0 1003, .start .right true, .respond 0 9 1004, .finish 0 1005]

theorem rootKeys_agree_after_settled_run :
    ∃ state, run? (restrict (PairState.AnswersSettled .twoPeers)
        (PairState.step? .twoPeers)) .initial settledRun = some state ∧
      heldKeys state = (some 7, some 7) ∧ state.AllDelivered ∧ state.SameKey .twoPeers ∧
      state.JoinsSameKey .twoPeers := by
  refine exists_of_run? _ _
    (fun state => heldKeys state = (some 7, some 7) ∧ state.AllDelivered) (by decide +kernel) ?_
  rintro state ran ⟨held, delivered⟩
  obtain ⟨agree, joins⟩ := rootKeys_agree_of_answersSettled .twoPeers
    (reachableUnder_of_run? (.start rfl) ran)
  exact ⟨held, delivered, agree delivered, joins⟩

/-- Both sides dial, both create a key for the other, and both install the other's. -/
private def crossingRun : List PairEvent :=
  [.start .left false, .start .right false, .respond 0 7 1000, .respond 0 8 1000, .finish 0 1001,
    .finish 0 1001]

/-- After crossing handshakes the keys differ, and a Join between the two is still accepted. -/
theorem rootKeys_differ_after_crossing_dials :
    (∃ state, run? (PairState.step? .twoPeers) .initial crossingRun = some state ∧
      (pairSystem .twoPeers).Reachable state ∧ state.AllDelivered ∧
      heldKeys state = (some 7, some 8)) ∧
    ∃ state, run? (PairState.step? .twoPeers) .initial
        (crossingRun ++ [.start .left true, .respond 0 9 2000]) = some state ∧
      (pairSystem .twoPeers).Reachable state ∧ heldKeys state = (some 7, some 8) ∧
      state.msg2s = [⟨.left, ⟨.join, 1, none, 0⟩⟩] ∧
      (state.applyAnswer .twoPeers ⟨.left, ⟨.join, 1, none, 0⟩⟩ 2001).1.isOk = true := by
  constructor
  · exact exists_of_run? _ _
      (fun state => state.AllDelivered ∧ heldKeys state = (some 7, some 8)) (by decide +kernel)
      fun state ran seen => ⟨reachable_of_run? rfl ran, seen⟩
  · exact exists_of_run? _ _
      (fun state => heldKeys state = (some 7, some 8) ∧
        state.msg2s = [⟨.left, ⟨.join, 1, none, 0⟩⟩] ∧
        (state.applyAnswer .twoPeers ⟨.left, ⟨.join, 1, none, 0⟩⟩ 2001).1.isOk = true)
      (by decide +kernel) fun state ran seen => ⟨reachable_of_run? rfl ran, seen⟩

end EasyTier.Peers
