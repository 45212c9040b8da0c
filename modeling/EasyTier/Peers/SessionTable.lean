import EasyTier.Peers.PeerSession
import EasyTier.Tunnel.TrafficKeys

/-! # The sessions of a node

Connections and the store share sessions, and a connection may outlive the entry it was opened
with. So sessions live in a table and are referred to by their place in it; an entry of the store
is such a reference. The table also keeps, as history, which root keys were in use with which peer.
-/

namespace EasyTier.Peers

open Data Packet Tunnel PeerSession PeerSessionStore

abbrev SessionRef := Nat

/-- Sessions are shared, so the entries of the store refer to them. -/
structure SessionTable where
  sessions : List PeerSession
  entries : SessionKey → Option SessionRef
  agreed : List (PeerId × RootKey)

namespace SessionTable

variable (table : SessionTable)

def empty : SessionTable := { sessions := [], entries := fun _ => none, agreed := [] }

/-- The table as the store functions see it. -/
def view : PeerSessionStore :=
  fun key => (table.entries key).bind (table.sessions[·]?)

/-- A session changes in place. -/
def update (ref : SessionRef) (session : PeerSession) : SessionTable :=
  { table with
    sessions := table.sessions.set ref session
    agreed := table.agreed ++ [(session.peerId, session.rootKey)] }

/-- A new session becomes the entry of a key. -/
def allocate (key : SessionKey) (session : PeerSession) : SessionTable :=
  { sessions := table.sessions ++ [session]
    entries := Function.update table.entries key (some table.sessions.length)
    agreed := table.agreed ++ [(session.peerId, session.rootKey)] }

/-- The entry of a key goes away; the session stays with whoever holds it. -/
def forget (key : SessionKey) : SessionTable :=
  { table with entries := Function.update table.entries key none }

/-- What a store function leaves as the entry of a key: a valid entry is the same session changed in
place, anything else is a session of its own. -/
def commit (key : SessionKey) (after : Option PeerSession) : SessionTable :=
  if after = table.view key then
    table
  else
    match after, table.entries key, table.view.valid? key with
    | none, _, _ => table.forget key
    | some session, some ref, some _ => table.update ref session
    | some session, _, _ => table.allocate key session

/-- `PeerSessionStore::get`. -/
def get (key : SessionKey) : Option SessionRef × SessionTable :=
  match table.view key with
  | none => (none, table)
  | some session => if session.isValid then (table.entries key, table) else (none, table.forget key)

/-- The table is consistent: cached keys are derived, algorithms are AEADs, the history is complete
and an entry is a session with the peer of its key. -/
structure Sound (primitives : Primitives) (table : SessionTable) : Prop where
  derived : ∀ session ∈ table.sessions, session.datagram.KeysDerived primitives
  aead : ∀ session ∈ table.sessions, IsAead session.datagram.sendCipherAlgorithm ∧
    IsAead session.datagram.recvCipherAlgorithm
  agreed : ∀ session ∈ table.sessions, (session.peerId, session.rootKey) ∈ table.agreed
  entries : ∀ key ref, table.entries key = some ref →
    ∃ session, table.sessions[ref]? = some session ∧ session.peerId = key.peerId

/-- Sessions keep their place and their peer, and the history only grows. -/
structure Evolves (before after : SessionTable) : Prop where
  peers : ∀ (ref : SessionRef) (session : PeerSession), before.sessions[ref]? = some session →
    ∃ next : PeerSession, after.sessions[ref]? = some next ∧ next.peerId = session.peerId
  agreed : before.agreed ⊆ after.agreed

theorem Evolves.refl : Evolves table table :=
  ⟨fun _ session found => ⟨session, found, rfl⟩, List.Subset.refl _⟩

theorem Evolves.trans {first second third : SessionTable} (before : Evolves first second)
    (after : Evolves second third) : Evolves first third := by
  constructor
  · intro ref session found
    obtain ⟨middle, kept, same⟩ := before.peers ref session found
    obtain ⟨last, keptAgain, sameAgain⟩ := after.peers ref middle kept
    exact ⟨last, keptAgain, sameAgain.trans same⟩
  · exact List.Subset.trans before.agreed after.agreed

/-- The session is one with the peer. -/
def IsWith (ref : SessionRef) (peerId : PeerId) : Prop :=
  ∃ session, table.sessions[ref]? = some session ∧ session.peerId = peerId

variable {ref : SessionRef} {primitives : Primitives} {table : SessionTable} {session : PeerSession}
  {sendAlgorithm recvAlgorithm : String} {key : SessionKey}

theorem Evolves.isWith {before after : SessionTable} (evolves : Evolves before after)
    {peerId : PeerId} (isWith : before.IsWith ref peerId) : after.IsWith ref peerId := by
  obtain ⟨session, found, ofPeer⟩ := isWith
  obtain ⟨next, kept, same⟩ := evolves.peers ref session found
  exact ⟨next, kept, same.trans ofPeer⟩

/-- A session that may take the place of another one. -/
structure Replaces (primitives : Primitives) (before after : PeerSession) : Prop where
  peerId : after.peerId = before.peerId
  derived : before.datagram.KeysDerived primitives → after.datagram.KeysDerived primitives
  aead : IsAead before.datagram.sendCipherAlgorithm ∧ IsAead before.datagram.recvCipherAlgorithm →
    IsAead after.datagram.sendCipherAlgorithm ∧ IsAead after.datagram.recvCipherAlgorithm

theorem update_evolves {before after : PeerSession} (found : table.sessions[ref]? = some before)
    (replaces : Replaces primitives before after) : Evolves table (table.update ref after) := by
  constructor
  · intro other session stored
    by_cases same : ref = other
    · subst same
      obtain ⟨bound, _⟩ := List.getElem?_eq_some_iff.mp found
      rw [found] at stored
      cases stored
      exact ⟨after, by simp [update, bound], replaces.peerId⟩
    · exact ⟨session, by simp [update, same, stored], rfl⟩
  · exact List.subset_append_left _ _

theorem Sound.update {before after : PeerSession} (sound : table.Sound primitives)
    (found : table.sessions[ref]? = some before) (replaces : Replaces primitives before after) :
    (table.update ref after).Sound primitives := by
  have member : before ∈ table.sessions := List.mem_of_getElem? found
  have written : ∀ session ∈ (table.update ref after).sessions,
      session ∈ table.sessions ∨ session = after :=
    fun session stored => List.mem_or_eq_of_mem_set stored
  refine ⟨fun session stored => ?_, fun session stored => ?_, fun session stored => ?_,
    fun key other entry => ?_⟩
  · rcases written session stored with old | rfl
    · exact sound.derived session old
    · exact replaces.derived (sound.derived before member)
  · rcases written session stored with old | rfl
    · exact sound.aead session old
    · exact replaces.aead (sound.aead before member)
  · rcases written session stored with old | rfl
    · exact List.mem_append_left _ (sound.agreed session old)
    · exact List.mem_append_right _ (List.mem_singleton_self _)
  · obtain ⟨session, stored, peer⟩ := sound.entries key other entry
    obtain ⟨next, kept, same⟩ := (update_evolves found replaces).peers other session stored
    exact ⟨next, kept, same.trans peer⟩

theorem forget_evolves (table : SessionTable) (key : SessionKey) :
    Evolves table (table.forget key) :=
  ⟨fun _ session found => ⟨session, found, rfl⟩, List.Subset.refl _⟩

theorem Sound.forget
    (sound : table.Sound primitives) (key : SessionKey) : (table.forget key).Sound primitives := by
  refine ⟨sound.derived, sound.aead, sound.agreed, fun other ref entry => ?_⟩
  by_cases same : other = key
  · simp [SessionTable.forget, same] at entry
  · simp only [SessionTable.forget, Function.update_apply, same, if_false] at entry
    exact sound.entries other ref entry

/-- A new session as it enters the table. -/
structure Enters (primitives : Primitives) (key : SessionKey) (session : PeerSession) : Prop where
  peerId : session.peerId = key.peerId
  derived : session.datagram.KeysDerived primitives
  aead : IsAead session.datagram.sendCipherAlgorithm ∧ IsAead session.datagram.recvCipherAlgorithm

theorem allocate_evolves (table : SessionTable) (key : SessionKey) (session : PeerSession) :
    Evolves table (table.allocate key session) := by
  constructor
  · intro ref other found
    obtain ⟨bound, _⟩ := List.getElem?_eq_some_iff.mp found
    exact ⟨other, by simp [allocate, List.getElem?_append_left bound, found], rfl⟩
  · exact List.subset_append_left _ _

theorem Sound.allocate (sound : table.Sound primitives)
    (enters : Enters primitives key session) : (table.allocate key session).Sound primitives := by
  have written : ∀ other ∈ (table.allocate key session).sessions,
      other ∈ table.sessions ∨ other = session := by
    intro other stored
    simpa [SessionTable.allocate] using stored
  refine ⟨fun other stored => ?_, fun other stored => ?_, fun other stored => ?_,
    fun otherKey ref entry => ?_⟩
  · rcases written other stored with old | rfl
    · exact sound.derived other old
    · exact enters.derived
  · rcases written other stored with old | rfl
    · exact sound.aead other old
    · exact enters.aead
  · rcases written other stored with old | rfl
    · exact List.mem_append_left _ (sound.agreed other old)
    · exact List.mem_append_right _ (List.mem_singleton_self _)
  · by_cases same : otherKey = key
    · subst same
      simp only [SessionTable.allocate, Function.update_self, Option.some.injEq] at entry
      subst entry
      exact ⟨session, by simp [SessionTable.allocate], enters.peerId⟩
    · simp only [SessionTable.allocate, Function.update_apply, same, if_false] at entry
      obtain ⟨other, stored, peer⟩ := sound.entries otherKey ref entry
      obtain ⟨next, kept, samePeer⟩ := (allocate_evolves table key session).peers ref other stored
      exact ⟨next, kept, samePeer.trans peer⟩

/-- A valid entry is a session of the table. -/
theorem entry_of_valid? (present : table.view.valid? key = some session) :
    ∃ ref, table.entries key = some ref ∧ table.sessions[ref]? = some session := by
  obtain ⟨stored, _⟩ := valid?_eq_some.mp present
  obtain ⟨ref, entry, found⟩ := Option.bind_eq_some_iff.mp stored
  exact ⟨ref, entry, found⟩

/-- What a store function may leave as an entry: nothing, the entry, a changed version of the valid
entry, or a new session in place of an entry that is not valid. -/
inductive Leaves (primitives : Primitives) (table : SessionTable) (key : SessionKey) :
    Option PeerSession → Prop
  | nothing : Leaves primitives table key none
  | same : Leaves primitives table key (table.view key)
  | changed {before after : PeerSession} (present : table.view.valid? key = some before)
      (replaces : Replaces primitives before after) : Leaves primitives table key (some after)
  | fresh {session : PeerSession} (absent : table.view.valid? key = none)
      (enters : Enters primitives key session) : Leaves primitives table key (some session)

theorem Sound.commit {after : Option PeerSession} (sound : table.Sound primitives)
    (leaves : Leaves primitives table key after) :
    (table.commit key after).Sound primitives ∧ Evolves table (table.commit key after) := by
  unfold SessionTable.commit
  split
  · exact ⟨sound, Evolves.refl table⟩
  rename_i changes
  cases leaves with
  | nothing => exact ⟨sound.forget key, forget_evolves table key⟩
  | same => exact absurd rfl changes
  | changed present replaces =>
    obtain ⟨ref, entry, found⟩ := entry_of_valid? present
    simp only [entry, present]
    exact ⟨sound.update found replaces, update_evolves found replaces⟩
  | fresh absent enters =>
    rw [absent]
    cases table.entries key with
    | none | some _ => exact ⟨sound.allocate enters, allocate_evolves table key _⟩

theorem Sound.get (sound : table.Sound primitives) (key : SessionKey) :
    (table.get key).2.Sound primitives ∧ Evolves table (table.get key).2 := by
  unfold SessionTable.get
  split
  · exact ⟨sound, Evolves.refl table⟩
  · split
    · exact ⟨sound, Evolves.refl table⟩
    · exact ⟨sound.forget key, forget_evolves table key⟩

/-! ## The operations on sessions -/

section

variable (primitives : Primitives) (session : PeerSession)

section

variable (senderPeerId receiverPeerId : PeerId) (packet : ZCPacket) (nowMs : Nat)

theorem replaces_encryptPayload :
    Replaces primitives session
      (session.encryptPayload primitives senderPeerId receiverPeerId packet nowMs).2 := by
  unfold encryptPayload
  split
  · exact ⟨rfl, id, id⟩
  rename_i valid
  have datagramValid : session.datagram.isValid = true := by
    simp only [isValid, Bool.not_eq_true', Bool.not_eq_false, Bool.and_eq_true] at valid
    exact valid.2
  obtain ⟨keyCache, invalidated, frame⟩ := session.datagram.encryptPayload_frame primitives
    datagramValid (dirForSender senderPeerId receiverPeerId) packet nowMs
  obtain ⟨epoch, startedMs, packets, _, drawn⟩ := session.datagram.nextNonce_cases
    (dirForSender senderPeerId receiverPeerId) nowMs
  rw [drawn] at frame
  refine ⟨rfl, fun derived => (derived.encryptPayload _ packet nowMs).1, fun aead => ?_⟩
  dsimp only
  rw [frame]
  exact aead

theorem replaces_decryptPayload :
    Replaces primitives session
      (session.decryptPayload primitives senderPeerId receiverPeerId packet nowMs).2 := by
  unfold decryptPayload
  split
  · exact ⟨rfl, id, id⟩
  obtain ⟨rxSlots, keyCache, grace, expires, invalidated, count, frame⟩ :=
    (session.datagram.decryptPayload_cases primitives
      (dirForSender senderPeerId receiverPeerId) packet nowMs).1
  refine ⟨rfl, fun derived => (derived.decryptPayload _ packet nowMs).1, fun aead => ?_⟩
  dsimp only
  rw [frame]
  exact aead

end

theorem replaces_invalidate :
    Replaces primitives session session.invalidate :=
  ⟨rfl, fun derived => derived.of_sameKeys ⟨rfl, rfl, rfl⟩ rfl, id⟩

theorem replaces_recorded
    (recorded : Option StaticPubkey) :
    Replaces primitives session { session with peerStaticPubkey := recorded } :=
  ⟨rfl, id, id⟩

end

/-- `upsert_responder_session` leaves an entry the table can take. -/
theorem leaves_upsertResponderSession (primitives : Primitives) (table : SessionTable)
    (key : SessionKey) (aSessionGeneration : Option Nat)
    (send : IsAead sendAlgorithm) (recv : IsAead recvAlgorithm)
    (peerStaticPubkey : Option StaticPubkey) (newRootKey : RootKey) (nowMs : Nat) :
    Leaves primitives table key ((table.view.upsertResponderSession key aSessionGeneration
      sendAlgorithm recvAlgorithm peerStaticPubkey newRootKey nowMs).2 key) := by
  rcases table.view.upsertResponderSession_cases key aSessionGeneration sendAlgorithm
      recvAlgorithm peerStaticPubkey newRootKey nowMs with
    ⟨error, refused⟩ | ⟨absent, created⟩ | ⟨session, recorded, present, _, _, answered⟩
  · rw [refused]
    exact .same
  · rw [created]
    dsimp only
    rw [insert_self]
    exact .fresh absent ⟨rfl, SecureDatagramSession.keysDerived_of_cleared primitives rfl, send,
      recv⟩
  · rw [answered]
    dsimp only
    rw [insert_self]
    exact .changed present (replaces_recorded primitives session recorded)

/-- Entering or staying: what an installed session is to the table. -/
theorem leaves_of_installs {generation epoch : Nat} {rootKey : RootKey}
    {pubkey : Option StaticPubkey}
    (installs : PeerSessionStore.Installs session generation rootKey epoch sendAlgorithm
      recvAlgorithm pubkey)
    (peerId : session.peerId = ((table.view.valid? key).map (·.peerId)).getD key.peerId)
    (send : IsAead sendAlgorithm) (recv : IsAead recvAlgorithm) :
    Leaves primitives table key (some session) := by
  have derived : session.datagram.KeysDerived primitives :=
    SecureDatagramSession.keysDerived_of_cleared primitives installs.keyCache
  have aead : IsAead session.datagram.sendCipherAlgorithm ∧
      IsAead session.datagram.recvCipherAlgorithm := by
    have algorithms := installs.algorithms
    simp only [checkEncryptAlgoSame, SecureDatagramSession.checkEncryptAlgoSame] at algorithms
    split at algorithms
    · cases algorithms
    rename_i same
    simp only [not_or, not_not] at same
    rw [same.1, same.2]
    exact ⟨send, recv⟩
  cases present : table.view.valid? key with
  | none =>
    rw [present] at peerId
    exact .fresh present ⟨peerId, derived, aead⟩
  | some before =>
    rw [present] at peerId
    exact .changed present ⟨peerId, fun _ => derived, fun _ => aead⟩

theorem leaves_applyJoin (primitives : Primitives) (table : SessionTable) (key : SessionKey)
    (bSessionGeneration : Nat) (sendAlgorithm recvAlgorithm : String)
    (peerStaticPubkey : Option StaticPubkey) :
    Leaves primitives table key ((table.view.applyJoin key bSessionGeneration sendAlgorithm
      recvAlgorithm peerStaticPubkey).2 key) := by
  have kept : Leaves primitives table key ((table.view.get key).2 key) := by
    rcases table.view.get_entry key with gone | same
    · rw [gone]
      exact .nothing
    · rw [same]
      exact .same
  have first := table.view.fst_get key
  unfold applyJoin
  generalize table.view.get key = got at kept first
  obtain ⟨found, after⟩ := got
  cases found with
  | none => exact kept
  | some session =>
    dsimp only at kept first ⊢
    split
    · exact kept
    split
    · exact kept
    rename_i checked passed
    obtain ⟨recorded, rfl, _⟩ := checkOrSetPeerStaticPubkey_frame passed
    have changed : Leaves primitives table key
        ((after.insert key { session with peerStaticPubkey := recorded }) key) := by
      rw [insert_self]
      exact .changed first.symm (replaces_recorded primitives session recorded)
    split
    · exact changed
    · exact changed

/-- `apply_initiator_action` leaves an entry the table can take. -/
theorem leaves_applyInitiatorAction (primitives : Primitives) (table : SessionTable)
    (key : SessionKey) (action : PeerSessionAction) (bSessionGeneration : Nat)
    (rootKey : Option RootKey) (initialEpoch : Nat)
    (send : IsAead sendAlgorithm) (recv : IsAead recvAlgorithm)
    (peerStaticPubkey : Option StaticPubkey) (nowMs : Nat) :
    Leaves primitives table key ((table.view.applyInitiatorAction key action bSessionGeneration
      rootKey initialEpoch sendAlgorithm recvAlgorithm peerStaticPubkey nowMs).2 key) := by
  have install : ∀ preserve installed, Leaves primitives table key
      ((table.view.applyRootKey key preserve bSessionGeneration installed initialEpoch
        sendAlgorithm recvAlgorithm peerStaticPubkey nowMs).2 key) := by
    intro preserve installed
    rcases table.view.applyRootKey_cases key preserve bSessionGeneration installed initialEpoch
        sendAlgorithm recvAlgorithm peerStaticPubkey nowMs with
      ⟨_, _, _, _, refused⟩ | ⟨session, installs, peerId, done⟩
    · rw [refused]
      exact .same
    · rw [done]
      dsimp only
      rw [insert_self]
      exact leaves_of_installs installs peerId send recv
  unfold applyInitiatorAction
  split
  · exact leaves_applyJoin primitives table key bSessionGeneration sendAlgorithm recvAlgorithm
      peerStaticPubkey
  · exact .same
  · exact .same
  · exact install true _
  · exact install false _

end SessionTable

end EasyTier.Peers
