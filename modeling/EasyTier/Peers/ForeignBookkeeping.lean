import EasyTier.Peers.ForeignNetworkManager

/-! # Whether the books of a relay are exact

Every network is to be established by a peer with the secret, every accepted connection is to be in
the entry of its network, and the table of peers is to agree with the entries whenever nothing is
under way. Each of the three is lost when one task gets in the way of another, or when a call is
turned away.
-/

namespace EasyTier.Peers

open Data Packet Semantics

/-- The call has listed its peer and has not ended. -/
def ForeignCall.underWay : ForeignCall → Bool
  | .idle | .checked | .accepted | .failed => false
  | _ => true

namespace ForeignState

variable {ConnId : Type} (conns : ConnId → ForeignConn) (state : ForeignState ConnId)

/-! ## What is to hold -/

/-- Every network is established by a peer that has presented a digest. -/
def EstablishedBySecret : Prop :=
  ∀ networkName entry, state.networkPeerMaps networkName = some entry →
    (state.entries entry).network.networkSecretDigestIsEmpty = false

/-- The entry of the network of a connection has its peer with the connection. -/
def LivesInNetwork (connId : ConnId) : Prop :=
  ∃ entry peer, state.networkPeerMaps (conns connId).networkName = some entry ∧
    (state.entries entry).peerMap.lookup (conns connId).peerId = some peer ∧
    connId ∈ (state.peers peer).conns

/-- The peer is in the entry of the network. -/
def HasPeer (peerId : PeerId) (networkName : String) : Prop :=
  ∃ entry ∈ state.networkPeerMaps networkName, peerId ∈ (state.entries entry).peerMap

instance (peerId : PeerId) (networkName : String) : Decidable (state.HasPeer peerId networkName) :=
  inferInstanceAs (Decidable (∃ entry ∈ _, _))

/-- No call is between its first look and its end, and no event is to be issued or waiting for its
handler. -/
def Quiescent : Prop :=
  (∀ connId, state.calls connId ∈ [.idle, .accepted, .failed]) ∧
    ∀ entry < state.nextEntry, (state.entries entry).unissued ++ (state.entries entry).events = []

/-- The three together. -/
structure ExactBooks : Prop where
  established : state.EstablishedBySecret
  living : ∀ connId, state.calls connId = .accepted → state.closed connId = false →
    state.LivesInNetwork conns connId
  listed : state.Quiescent → ∀ peerId networkName,
    state.peerNetworkMap peerId networkName = true ↔ state.HasPeer peerId networkName

/-! ## Orderly steps -/

/-- A step that no other task has got in the way of. A peer without the secret still finds the
network there. A connection is entered in a peer that still is the registered one, or its new peer
is registered in the entry that still is the one of the network and has a running handler, while it
still is listed. A call that fails takes back what it has listed if the network does not have the
peer, and takes nothing back if it has. A peer is taken off the list while it has not come back,
and a handler ends with no peer to take off and none in the entry it removes. -/
def orderly : ForeignAction ConnId → Bool
  | .getOrInsertEntry connId =>
    !(conns connId).network.networkSecretDigestIsEmpty ||
      (state.networkPeerMaps (conns connId).networkName).isSome
  | .enterConn connId added =>
    match state.calls connId with
    | .connecting entry _ peer false =>
      !added || state.networkPeerMaps (conns connId).networkName == some entry &&
        (state.entries entry).peerMap.lookup (conns connId).peerId == some peer
    | _ => true
  | .addNewPeer connId =>
    match state.calls connId with
    | .registering entry _ =>
      state.networkPeerMaps (conns connId).networkName == some entry &&
        state.peerNetworkMap (conns connId).peerId (conns connId).networkName &&
        decide ((state.entries entry).handler = .running)
    | _ => true
  | .giveUp connId =>
    match state.calls connId with
    | .failing created =>
      created != decide (state.HasPeer (conns connId).peerId (conns connId).networkName)
    | _ => true
  | .handleEvent entry =>
    match (state.entries entry).events with
    | .peerRemoved peerId :: _ =>
      !decide (state.HasPeer peerId (state.entries entry).network.networkName)
    | _ => true
  | .exitHandler entry =>
    ((state.entries entry).unissued ++ (state.entries entry).events).all (· == .peerConnRemoved) &&
      (state.networkPeerMaps (state.entries entry).network.networkName != some entry ||
        (state.entries entry).peerMap.keys.isEmpty)
  | _ => true

variable {conns state} {peerId : PeerId} {networkName other : String} {entry : Nat}

/-! ## The invariant -/

/-- The running handler of an entry is to take a peer off the list. -/
def Announces (entry : ForeignNetworkEntry) (peerId : PeerId) (networkName : String) : Prop :=
  entry.handler = .running ∧ entry.network.networkName = networkName ∧
    .peerRemoved peerId ∈ entry.unissued ++ entry.events

/-- What holds of the entry of a network. -/
structure Current (listing : PeerId → String → Bool) (networkName : String)
    (entry : ForeignNetworkEntry) : Prop where
  established : entry.network.networkSecretDigestIsEmpty = false
  named : entry.network.networkName = networkName
  lists : ∀ peerId ∈ entry.peerMap, entry.handler = .running ∧ listing peerId networkName = true

variable (conns state)

/-- A peer that is listed is in the entry of the network, or has a call under way, or an event that
takes it off the list. -/
def Accounted (peerId : PeerId) (networkName : String) : Prop :=
  state.HasPeer peerId networkName ∨
  (∃ connId, (state.calls connId).underWay = true ∧ (conns connId).peerId = peerId ∧
    (conns connId).networkName = networkName) ∨
  ∃ entry < state.nextEntry, Announces (state.entries entry) peerId networkName

/-- The invariant of the orderly runs. -/
structure Balanced : Prop where
  current : ∀ networkName entry, state.networkPeerMaps networkName = some entry →
    entry < state.nextEntry ∧ Current state.peerNetworkMap networkName (state.entries entry)
  living : ∀ connId, state.calls connId = .accepted → state.closed connId = false →
    state.LivesInNetwork conns connId
  registering : ∀ connId entry peer, state.calls connId = .registering entry peer →
    state.closed connId = false → connId ∈ (state.peers peer).conns
  accounted : ∀ peerId networkName, state.peerNetworkMap peerId networkName = true →
    state.Accounted conns peerId networkName

variable {conns state} {change : ForeignNetworkEntry → ForeignNetworkEntry} {connId : ConnId}

/-- The invariant gives exact books. -/
theorem Balanced.exactBooks (balanced : state.Balanced conns) : state.ExactBooks conns where
  established networkName entry mapped := (balanced.current networkName entry mapped).2.established
  living := balanced.living
  listed := by
    rintro ⟨idle, quiet⟩ peerId networkName
    constructor
    · intro listed
      rcases balanced.accounted peerId networkName listed with present | ⟨connId, underWay, _⟩ |
        ⟨entry, allocated, _, _, waiting⟩
      · exact present
      · have ended := idle connId
        simp only [List.mem_cons, List.not_mem_nil, or_false] at ended
        rcases ended with call | call | call
        all_goals
          rw [call] at underWay
          cases underWay
      · rw [quiet entry allocated] at waiting
        cases waiting
    · rintro ⟨entry, mapped, member⟩
      exact ((balanced.current networkName entry mapped).2.lists peerId member).2

/-- Nothing is registered, listed or under way at the start. -/
theorem balanced_start : (start : ForeignState ConnId).Balanced conns where
  current := nofun
  living := nofun
  registering := nofun
  accounted := nofun

section Updates

variable (balanced : state.Balanced conns)
include balanced

/-! ## Updates of an entry -/

omit balanced in
/-- What holds of the changed entry and of every entry as it was holds of each entry now. -/
theorem updateEntry_forall {motive : ForeignNetworkEntry → Prop} {other : Nat}
    (changed : other = entry → motive (change (state.entries entry)))
    (rest : other ≠ entry → motive (state.entries other)) :
    motive ((state.updateEntry entry change).entries other) := by
  by_cases same : other = entry
  · subst same
    simpa [updateEntry] using changed rfl
  · simpa [updateEntry, same] using rest same

/-- An entry changes. If it is the one of a network, it keeps what holds of such an entry, the
peers with an open connection, and the other peers too unless it announces their removal; removals
of listed peers stay announced. -/
theorem Balanced.updateEntry
    (current : ∀ networkName, state.networkPeerMaps networkName = some entry →
      Current state.peerNetworkMap networkName (change (state.entries entry)))
    (opened : ∀ connId peer, state.networkPeerMaps (conns connId).networkName = some entry →
      (state.entries entry).peerMap.lookup (conns connId).peerId = some peer →
      connId ∈ (state.peers peer).conns → state.closed connId = false →
      (change (state.entries entry)).peerMap.lookup (conns connId).peerId = some peer)
    (stays : ∀ peerId networkName, state.networkPeerMaps networkName = some entry →
      peerId ∈ (state.entries entry).peerMap → peerId ∈ (change (state.entries entry)).peerMap ∨
        Announces (change (state.entries entry)) peerId networkName)
    (announced : ∀ peerId networkName, state.peerNetworkMap peerId networkName = true →
      Announces (state.entries entry) peerId networkName →
      Announces (change (state.entries entry)) peerId networkName) :
    (state.updateEntry entry change).Balanced conns where
  current networkName other mapped := by
    obtain ⟨allocated, before⟩ := balanced.current networkName other mapped
    refine ⟨allocated, updateEntry_forall (motive := Current state.peerNetworkMap networkName) ?_
      fun _ => before⟩
    rintro rfl
    exact current networkName mapped
  living connId accepted open_ := by
    obtain ⟨other, peer, mapped, found, member⟩ := balanced.living connId accepted open_
    refine ⟨other, peer, mapped, updateEntry_forall
      (motive := (·.peerMap.lookup (conns connId).peerId = some peer)) ?_ fun _ => found, member⟩
    rintro rfl
    exact opened connId peer mapped found member open_
  registering := balanced.registering
  accounted peerId networkName listed := by
    rcases balanced.accounted peerId networkName listed with ⟨other, mapped, member⟩ | underWay |
      ⟨other, allocated, announces⟩
    · have either : peerId ∈ ((state.updateEntry entry change).entries other).peerMap ∨
          Announces ((state.updateEntry entry change).entries other) peerId networkName :=
        updateEntry_forall (motive := fun entry => peerId ∈ entry.peerMap ∨
          Announces entry peerId networkName) (by rintro rfl; exact stays _ _ mapped member)
          fun _ => .inl member
      exact either.elim (fun stayed => .inl ⟨other, mapped, stayed⟩) fun announces =>
        .inr (.inr ⟨other, (balanced.current networkName other mapped).1, announces⟩)
    · exact .inr (.inl underWay)
    · refine .inr (.inr ⟨other, allocated, updateEntry_forall
        (motive := (Announces · peerId networkName)) ?_ fun _ => announces⟩)
      rintro rfl
      exact announced peerId networkName listed announces

/-- An entry changes in nothing but its lock, the work of its handler and events that take no peer
off the list; a running handler goes on. -/
structure Touches (entry changed : ForeignNetworkEntry) : Prop where
  network : changed.network = entry.network
  peerMap : changed.peerMap = entry.peerMap
  running : entry.handler = .running → changed.handler = .running ∧
    ∀ peerId, PeerContextEvent.peerRemoved peerId ∈ entry.unissued ++ entry.events →
      PeerContextEvent.peerRemoved peerId ∈ changed.unissued ++ changed.events

theorem Balanced.touch (touches : Touches (state.entries entry) (change (state.entries entry))) :
    (state.updateEntry entry change).Balanced conns := by
  refine balanced.updateEntry (fun networkName mapped => ?_) ?_ ?_ ?_
  · have before := (balanced.current networkName entry mapped).2
    refine ⟨?_, ?_, ?_⟩
    · rw [touches.network]
      exact before.established
    · rw [touches.network]
      exact before.named
    · rw [touches.peerMap]
      intro peerId member
      obtain ⟨running, listed⟩ := before.lists peerId member
      exact ⟨(touches.running running).1, listed⟩
  · rw [touches.peerMap]
    exact fun _ _ _ found _ _ => found
  · rw [touches.peerMap]
    exact fun _ _ _ => .inl
  · rintro peerId networkName _ ⟨running, named, waiting⟩
    refine ⟨(touches.running running).1, ?_, (touches.running running).2 peerId waiting⟩
    rw [touches.network]
    exact named

theorem Balanced.setLocked (entry : Nat) (locked : Bool) :
    (state.setLocked entry locked).Balanced conns :=
  balanced.touch ⟨rfl, rfl, fun running => ⟨running, fun _ => id⟩⟩

/-! ## Updates of connections and peers -/

/-- Connections that have closed stay closed. -/
theorem Balanced.close {closed : ConnId → Bool}
    (grows : ∀ connId, closed connId = false → state.closed connId = false) :
    { state with closed }.Balanced conns where
  current := balanced.current
  living connId accepted opened := balanced.living connId accepted (grows connId opened)
  registering connId entry peer call opened :=
    balanced.registering connId entry peer call (grows connId opened)
  accounted := balanced.accounted

/-- A peer keeps its open connections. -/
theorem Balanced.updatePeer {peer : Nat} {change : ForeignPeer ConnId → ForeignPeer ConnId}
    (keeps : ∀ connId ∈ (state.peers peer).conns, state.closed connId = false →
      connId ∈ (change (state.peers peer)).conns) :
    (state.updatePeer peer change).Balanced conns := by
  have stays : ∀ {connId : ConnId} {other : Nat}, connId ∈ (state.peers other).conns →
      state.closed connId = false →
      connId ∈ ((state.updatePeer peer change).peers other).conns := by
    intro connId other member opened
    by_cases same : other = peer
    · subst same
      simpa [ForeignState.updatePeer] using keeps connId member opened
    · simpa [ForeignState.updatePeer, same] using member
  refine ⟨balanced.current, fun connId accepted opened => ?_, fun connId entry other call opened =>
    stays (balanced.registering connId entry other call opened) opened, balanced.accounted⟩
  obtain ⟨entry, other, mapped, found, member⟩ := balanced.living connId accepted opened
  exact ⟨entry, other, mapped, found, stays member opened⟩

/-- What the next peer will be does not matter. -/
theorem Balanced.allocatePeer (nextPeer : Nat) : { state with nextPeer }.Balanced conns :=
  ⟨balanced.current, balanced.living, balanced.registering, balanced.accounted⟩

/-! ## Updates of the tables -/

/-- Peers are listed and unlisted; those of the entries stay listed, and the new ones are accounted
for. -/
theorem Balanced.setListed {listed : Bool}
    (keeps : listed = false → ¬ state.HasPeer peerId networkName)
    (accounted : listed = true → state.Accounted conns peerId networkName) :
    (state.setListed peerId networkName listed).Balanced conns := by
  refine ⟨fun network entry mapped => ?_, balanced.living, balanced.registering,
    fun other network found => ?_⟩
  · obtain ⟨allocated, established, named, lists⟩ := balanced.current network entry mapped
    refine ⟨allocated, established, named, fun other member => ⟨(lists other member).1, ?_⟩⟩
    dsimp only [ForeignState.setListed]
    split
    · rename_i same
      obtain ⟨rfl, rfl⟩ := same
      exact Bool.eq_true_of_not_eq_false fun unlisted => keeps unlisted ⟨entry, mapped, member⟩
    · exact (lists other member).2
  · dsimp only [ForeignState.setListed] at found
    split at found
    · rename_i same
      obtain ⟨rfl, rfl⟩ := same
      exact accounted found
    · exact balanced.accounted other network found

/-- An entry without peers is removed. -/
theorem Balanced.deregister (empty : ∀ peerId, ¬ state.HasPeer peerId networkName) :
    (state.setNetwork networkName none).Balanced conns := by
  have others : ∀ {other entry peerId}, state.networkPeerMaps other = some entry →
      peerId ∈ (state.entries entry).peerMap →
      (state.setNetwork networkName none).networkPeerMaps other = some entry := by
    intro other entry peerId mapped member
    have different : other ≠ networkName := by
      rintro rfl
      exact empty peerId ⟨entry, mapped, member⟩
    simpa [setNetwork, different] using mapped
  refine ⟨fun other entry mapped => ?_, fun connId accepted opened => ?_, balanced.registering,
    fun peerId other listed => ?_⟩
  · by_cases same : other = networkName
    · simp [setNetwork, same] at mapped
    · simp only [setNetwork, Function.update_of_ne same] at mapped
      exact balanced.current other entry mapped
  · obtain ⟨entry, peer, mapped, found, member⟩ := balanced.living connId accepted opened
    exact ⟨entry, peer, others mapped (AList.lookup_isSome.mp (by rw [found]; rfl)), found, member⟩
  · rcases balanced.accounted peerId other listed with ⟨entry, mapped, member⟩ | rest
    · exact .inl ⟨entry, others mapped member, member⟩
    · exact .inr rest

/-- A network that is not there is established. -/
theorem Balanced.register {fresh : ForeignNetworkEntry}
    (absent : state.networkPeerMaps networkName = none)
    (secret : fresh.network.networkSecretDigestIsEmpty = false)
    (named : fresh.network.networkName = networkName) (unpeered : fresh.peerMap = ∅) :
    (state.register networkName fresh).Balanced conns := by
  have old : ∀ {entry}, entry < state.nextEntry →
      (state.register networkName fresh).entries entry = state.entries entry := by
    intro entry allocated
    simp [ForeignState.register, setNetwork, ForeignState.updateEntry, allocated.ne]
  have others : ∀ {other entry}, state.networkPeerMaps other = some entry →
      (state.register networkName fresh).networkPeerMaps other = some entry := by
    intro other entry mapped
    have different : other ≠ networkName := by
      rintro rfl
      exact nomatch absent.symm.trans mapped
    simpa [ForeignState.register, setNetwork, ForeignState.updateEntry, different] using mapped
  refine ⟨fun other entry mapped => ?_, fun connId accepted opened => ?_, balanced.registering,
    fun peerId other listed => ?_⟩
  · by_cases same : other = networkName
    · obtain rfl : state.nextEntry = entry := by
        simpa [ForeignState.register, setNetwork, same] using mapped
      have new : (state.register networkName fresh).entries state.nextEntry = fresh := by
        simp [ForeignState.register, setNetwork, ForeignState.updateEntry]
      rw [new, same]
      refine ⟨Nat.lt_succ_self _, secret, named, fun peerId member => ?_⟩
      rw [unpeered] at member
      exact absurd member (AList.notMem_empty peerId)
    · simp only [ForeignState.register, setNetwork, Function.update_of_ne same] at mapped
      obtain ⟨allocated, current⟩ := balanced.current other entry mapped
      rw [old allocated]
      exact ⟨Nat.lt_succ_of_lt allocated, current⟩
  · obtain ⟨entry, peer, mapped, found, member⟩ := balanced.living connId accepted opened
    refine ⟨entry, peer, others mapped, ?_, member⟩
    rw [old (balanced.current _ entry mapped).1]
    exact found
  · rcases balanced.accounted peerId other listed with ⟨entry, mapped, member⟩ | underWay |
      ⟨entry, allocated, announces⟩
    · refine .inl ⟨entry, others mapped, ?_⟩
      rw [old (balanced.current other entry mapped).1]
      exact member
    · exact .inr (.inl underWay)
    · refine .inr (.inr ⟨entry, Nat.lt_succ_of_lt allocated, ?_⟩)
      rw [old allocated]
      exact announces

omit balanced in
theorem not_hasPeer_of_empty (mapped : state.networkPeerMaps networkName = some entry)
    (empty : (state.entries entry).peerMap.keys.isEmpty = true) (peerId : PeerId) :
    ¬ state.HasPeer peerId networkName := by
  rintro ⟨found, registered, member⟩
  obtain rfl : entry = found := Option.some.inj (mapped.symm.trans registered)
  have listed : peerId ∈ (state.entries entry).peerMap.keys := member
  rw [List.isEmpty_iff.mp empty] at listed
  cases listed

/-- `remove_peer` of a peer that is not in the network. -/
theorem Balanced.removePeer (gone : ¬ state.HasPeer peerId networkName) :
    (state.removePeer peerId networkName).Balanced conns := by
  have unlisted : (state.setListed peerId networkName false).Balanced conns :=
    balanced.setListed (fun _ => gone) nofun
  unfold ForeignState.removePeer
  dsimp only
  split
  · exact unlisted
  · rename_i entry mapped
    split
    · rename_i empty
      exact unlisted.deregister (not_hasPeer_of_empty mapped empty)
    · exact unlisted

omit balanced in
/-- `remove_peer` takes the peer off the list, and changes no entry. -/
theorem removePeer_frame (state : ForeignState ConnId) (peerId : PeerId) (networkName : String) :
    (state.removePeer peerId networkName).peerNetworkMap peerId networkName = false ∧
      (state.removePeer peerId networkName).entries = state.entries := by
  unfold ForeignState.removePeer
  dsimp only
  repeat' split
  all_goals simp [ForeignState.setListed, setNetwork]

/-- `remove_network_if_current` of an entry without peers. -/
theorem Balanced.removeNetworkIfCurrent
    (empty : state.networkPeerMaps networkName = some entry →
      (state.entries entry).peerMap.keys.isEmpty = true) :
    (state.removeNetworkIfCurrent networkName entry).Balanced conns := by
  unfold ForeignState.removeNetworkIfCurrent
  split
  · rename_i mapped
    have none_has := not_hasPeer_of_empty mapped (empty mapped)
    have same : (fun other network => state.peerNetworkMap other network &&
        !(network == networkName && decide (other ∈ (state.entries entry).peerMap))) =
        state.peerNetworkMap := by
      funext other network
      have absent : other ∉ (state.entries entry).peerMap :=
        fun member => none_has other ⟨entry, mapped, member⟩
      simp [absent]
    rw [same]
    exact balanced.deregister none_has
  · exact balanced

omit balanced in
/-- `remove_network_if_current` of an entry of this name changes no entry, and leaves it to no
network. -/
theorem removeNetworkIfCurrent_frame
    (named : ∀ other, state.networkPeerMaps other = some entry → other = networkName) :
    (state.removeNetworkIfCurrent networkName entry).entries = state.entries ∧
      ∀ other, (state.removeNetworkIfCurrent networkName entry).networkPeerMaps other ≠
        some entry := by
  unfold ForeignState.removeNetworkIfCurrent
  split
  · refine ⟨rfl, fun other mapped => ?_⟩
    by_cases same : other = networkName
    · simp [setNetwork, same] at mapped
    · simp only [setNetwork, Function.update_of_ne same] at mapped
      exact same (named other mapped)
  · rename_i unmapped
    refine ⟨rfl, fun other mapped => unmapped ?_⟩
    rwa [← named other mapped]

/-! ## Updates of a call -/

variable [DecidableEq ConnId] {call : ForeignCall}

theorem Balanced.dropConns (entry : Nat) (peerId : PeerId) :
    (state.dropConns entry peerId).Balanced conns :=
  balanced.close fun _ opened => (Bool.or_eq_false_iff.mp opened).1

omit balanced in
/-- A connection that is open after a peer has been dropped is one of another peer. -/
theorem ne_of_open (state : ForeignState ConnId) {peer : Nat} {other : PeerId}
    (found : (state.entries entry).peerMap.lookup other = some peer)
    (member : connId ∈ (state.peers peer).conns)
    (opened : (state.dropConns entry peerId).closed connId = false) : other ≠ peerId := by
  rintro rfl
  simp [ForeignState.dropConns, found, member] at opened

/-- A call goes on or ends. It ends with success once its connection is in the network, and any
call under way may end that leaves no peer listed which is not there. -/
theorem Balanced.setCall
    (living : call = .accepted → state.closed connId = false → state.LivesInNetwork conns connId)
    (registering : ∀ entry peer, call = .registering entry peer → state.closed connId = false →
      connId ∈ (state.peers peer).conns)
    (still : (state.calls connId).underWay = true →
      state.peerNetworkMap (conns connId).peerId (conns connId).networkName = true →
      call.underWay = true ∨ state.HasPeer (conns connId).peerId (conns connId).networkName) :
    (state.setCall connId call).Balanced conns := by
  have other_call : ∀ {other}, other ≠ connId →
      (state.setCall connId call).calls other = state.calls other := by
    intro other different
    simp [ForeignState.setCall, different]
  have this_call : (state.setCall connId call).calls connId = call := by
    simp [ForeignState.setCall]
  refine ⟨balanced.current, fun other accepted opened => ?_,
    fun other entry peer registers opened => ?_, fun peerId networkName listed => ?_⟩
  · by_cases same : other = connId
    · subst same
      exact living (this_call.symm.trans accepted) opened
    · exact balanced.living other ((other_call same).symm.trans accepted) opened
  · by_cases same : other = connId
    · subst same
      exact registering entry peer (this_call.symm.trans registers) opened
    · exact balanced.registering other entry peer ((other_call same).symm.trans registers) opened
  · rcases balanced.accounted peerId networkName listed with present |
      ⟨other, underWay, rfl, rfl⟩ | announced
    · exact .inl present
    · by_cases same : other = connId
      · subst same
        rcases still underWay listed with continues | present
        · exact .inr (.inl ⟨other, by rwa [this_call], rfl, rfl⟩)
        · exact .inl present
      · exact .inr (.inl ⟨other, by rwa [other_call same], rfl, rfl⟩)
    · exact .inr (.inr announced)

/-- A call goes on. -/
theorem Balanced.advance (underWay : call.underWay = true)
    (unregistered : ∀ entry peer, call ≠ .registering entry peer) :
    (state.setCall connId call).Balanced conns := by
  refine balanced.setCall ?_ (fun entry peer same => absurd same (unregistered entry peer))
    fun _ _ => .inl underWay
  rintro rfl
  cases underWay

/-- A call fails and gives its lock back. -/
theorem Balanced.turnAway (entry : Nat) (created : Bool) :
    ((state.setCall connId (.failing created)).setLocked entry false).Balanced conns :=
  (balanced.advance rfl (by nofun)).setLocked entry false

end Updates

/-! ## One step of a call -/

section Steps

variable [DecidableEq ConnId] {next : ForeignState ConnId} (balanced : state.Balanced conns)
include balanced

theorem Balanced.beginCall {allowed : Bool}
    (taken : beginCall conns state connId allowed = some next) : next.Balanced conns := by
  unfold ForeignState.beginCall at taken
  split at taken
  · cases taken
  rename_i idle
  have notUnderWay : (state.calls connId).underWay ≠ true := by
    rw [not_not.mp idle]
    exact nofun
  split at taken
  all_goals
    cases taken
    exact balanced.setCall nofun nofun fun underWay => absurd underWay notUnderWay

theorem Balanced.getOrInsertEntry (orderly : state.orderly conns (.getOrInsertEntry connId) = true)
    (taken : getOrInsertEntry conns state connId = some next) : next.Balanced conns := by
  unfold ForeignState.getOrInsertEntry at taken
  split at taken
  · cases taken
  -- The call is under way and so accounts for the peer that is listed last.
  have lists : ∀ {got : ForeignState ConnId}, got.Balanced conns →
      (got.calls connId).underWay = true →
      (got.setListed (conns connId).peerId (conns connId).networkName true).Balanced conns :=
    fun got underWay => got.setListed nofun fun _ => .inr (.inl ⟨connId, underWay, rfl, rfl⟩)
  dsimp only at taken
  split at taken
  · rename_i entry mapped
    cases taken
    exact lists (balanced.advance rfl (by nofun))
      (by simp [ForeignState.setCall, ForeignCall.underWay])
  · rename_i absent
    cases taken
    have secret : (conns connId).network.networkSecretDigestIsEmpty = false := by
      simpa [ForeignState.orderly, absent] using orderly
    exact lists ((balanced.advance rfl (by nofun)).register absent secret rfl rfl)
      (by simp [ForeignState.setCall, ForeignState.register, setNetwork, ForeignState.updateEntry,
        ForeignCall.underWay])

theorem Balanced.prepared (taken : prepared state connId = some next) : next.Balanced conns := by
  unfold ForeignState.prepared at taken
  split at taken
  · cases taken
    exact balanced.advance rfl (by nofun)
  · cases taken

theorem Balanced.ensureHandler (taken : ensureHandler state connId = some next) :
    next.Balanced conns := by
  unfold ForeignState.ensureHandler at taken
  split at taken
  · split at taken
    · rename_i unstarted
      cases taken
      refine (balanced.advance rfl (by nofun)).touch ⟨rfl, rfl, fun running => ?_⟩
      exact nomatch unstarted.symm.trans running
    · cases taken
      exact balanced.advance rfl (by nofun)
  · cases taken

theorem Balanced.subscribe {subscribed : Bool}
    (taken : subscribe state connId subscribed = some next) : next.Balanced conns := by
  unfold ForeignState.subscribe at taken
  split at taken
  · cases taken
    refine (balanced.advance rfl (by nofun)).touch ?_
    split
    · exact ⟨rfl, rfl, fun _ => ⟨rfl, fun _ => id⟩⟩
    · exact ⟨rfl, rfl, fun running => ⟨running, fun _ => id⟩⟩
  · cases taken

theorem Balanced.acquireLock {trusted : Bool}
    (taken : acquireLock state connId trusted = some next) :
    next.Balanced conns := by
  unfold ForeignState.acquireLock at taken
  split at taken
  · split at taken
    · cases taken
    · cases taken
      exact (balanced.advance rfl (by nofun)).setLocked _ true
  · cases taken

theorem Balanced.lookUp {library : SecretLibrary} {tooMany : Bool}
    (taken : lookUp library conns state connId tooMany = some next) : next.Balanced conns := by
  unfold ForeignState.lookUp at taken
  split at taken
  · dsimp only at taken
    split at taken
    · cases taken
      exact balanced.turnAway _ _
    · split at taken
      · cases taken
        exact balanced.advance rfl (by nofun)
      · cases taken
        refine allocatePeer (updatePeer (balanced.advance rfl (by nofun)) ?_) _
        exact fun _ member _ => member
  · cases taken

theorem Balanced.lookUpAgain (taken : lookUpAgain conns state connId = some next) :
    next.Balanced conns := by
  unfold ForeignState.lookUpAgain at taken
  split at taken
  · split at taken
    · cases taken
      exact balanced.advance rfl (by nofun)
    · cases taken
      exact balanced.turnAway _ _
  · cases taken

theorem Balanced.enterConn {added : Bool}
    (orderly : state.orderly conns (.enterConn connId added) = true)
    (taken : enterConn state connId added = some next) : next.Balanced conns := by
  unfold ForeignState.enterConn at taken
  split at taken
  · rename_i entry created peer fresh call
    split at taken
    · cases taken
      exact balanced.turnAway _ _
    rename_i success
    have entered : (state.updatePeer peer fun peer =>
        { peer with conns := peer.conns ++ [connId] }).Balanced conns :=
      balanced.updatePeer fun _ member _ => List.mem_append_left _ member
    have member : connId ∈ ((state.updatePeer peer fun peer =>
        { peer with conns := peer.conns ++ [connId] }).peers peer).conns := by
      simp [ForeignState.updatePeer]
    dsimp only at taken
    split at taken
    · cases taken
      refine entered.setCall nofun ?_ fun _ _ => .inl rfl
      rintro _ _ ⟨⟩ _
      exact member
    · rename_i known
      cases taken
      obtain ⟨mapped, found⟩ : state.networkPeerMaps (conns connId).networkName = some entry ∧
          (state.entries entry).peerMap.lookup (conns connId).peerId = some peer := by
        simp only [ForeignState.orderly, call, Bool.not_eq_true _ ▸ known] at orderly
        simpa [success] using orderly
      refine (entered.setCall (fun _ _ => ⟨entry, peer, mapped, found, member⟩) (by nofun)
        fun _ _ => .inr ⟨entry, mapped, AList.lookup_isSome.mp ?_⟩).setLocked _ false
      exact Option.isSome_of_eq_some found
  · cases taken

theorem Balanced.addNewPeer (orderly : state.orderly conns (.addNewPeer connId) = true)
    (taken : addNewPeer conns state connId = some next) : next.Balanced conns := by
  unfold ForeignState.addNewPeer at taken
  split at taken
  · rename_i entry peer call
    cases taken
    obtain ⟨⟨mapped, listed⟩, running⟩ := by
      simpa only [ForeignState.orderly, call, Bool.and_eq_true, beq_iff_eq, decide_eq_true_eq] using
        orderly
    have dropped := balanced.dropConns entry (conns connId).peerId
    have registered : ((state.dropConns entry (conns connId).peerId).updateEntry entry fun entry =>
        { entry with
          peerMap := entry.peerMap.insert (conns connId).peerId peer }).Balanced conns := by
      refine dropped.updateEntry (fun networkName named => ?_) ?_ ?_ fun _ _ _ => id
      · have before := (balanced.current networkName entry named).2
        refine ⟨before.established, before.named, fun peerId member => ⟨running, ?_⟩⟩
        rcases (AList.mem_insert _).mp member with rfl | member
        · rw [← before.named, (balanced.current _ entry mapped).2.named]
          exact listed
        · exact (before.lists peerId member).2
      · intro other otherPeer _ found member opened
        rwa [AList.lookup_insert_ne (ne_of_open state found member opened)]
      · exact fun _ _ _ member => .inl ((AList.mem_insert _).mpr (.inr member))
    have inserted : (((state.dropConns entry (conns connId).peerId).updateEntry entry fun entry =>
        { entry with peerMap := entry.peerMap.insert (conns connId).peerId peer }).entries
          entry).peerMap = (state.entries entry).peerMap.insert (conns connId).peerId peer := by
      simp [ForeignState.updateEntry, ForeignState.dropConns]
    refine (registered.setCall (fun _ opened => ⟨entry, peer, mapped, ?_, ?_⟩) (by nofun)
      fun _ _ => .inr ⟨entry, mapped, ?_⟩).setLocked _ false
    · rw [inserted, AList.lookup_insert]
    · exact dropped.registering connId entry peer call opened
    · rw [inserted]
      exact (AList.mem_insert _).mpr (.inl rfl)
  · cases taken

theorem Balanced.cancel (taken : cancel state connId = some next) : next.Balanced conns := by
  unfold ForeignState.cancel at taken
  split at taken
  · cases taken
    exact balanced.advance rfl (by nofun)
  · cases taken
    exact balanced.advance rfl (by nofun)
  · cases taken
    exact balanced.turnAway _ _
  · cases taken

/-- A call that ends without success leaves no listing behind. -/
theorem Balanced.giveUp (orderly : state.orderly conns (.giveUp connId) = true)
    (taken : giveUp conns state connId = some next) : next.Balanced conns := by
  unfold ForeignState.giveUp at taken
  split at taken
  · rename_i created call
    cases taken
    simp only [ForeignState.orderly, call] at orderly
    cases created with
    | false =>
      refine balanced.setCall nofun nofun fun _ _ => .inr ?_
      simpa using orderly
    | true =>
      have gone : ¬ state.HasPeer (conns connId).peerId (conns connId).networkName := by
        simpa using orderly
      refine (balanced.removePeer gone).setCall nofun nofun fun _ listed => ?_
      exact nomatch (state.removePeer_frame _ _).1.symm.trans listed
  · cases taken

/-! ## One step of an entry -/

theorem Balanced.closeConn {peer : Nat} (taken : state.closeConn peer connId = some next) :
    next.Balanced conns := by
  unfold ForeignState.closeConn at taken
  split at taken
  · cases taken
    refine ((balanced.close ?_).updatePeer fun other member opened => ?_).touch
      ⟨rfl, rfl, fun running => ⟨running, fun _ waiting => ?_⟩⟩
    · intro other opened
      by_cases same : other = connId
      · simp [same] at opened
      · simpa [same] using opened
    · have different : other ≠ connId := by
        rintro rfl
        simp at opened
      simpa [different] using member
    · simpa using waiting
  · cases taken

/-- A closed peer leaves with its connections, and its removal is announced. -/
theorem Balanced.closePeer (entry : Nat) (peerId : PeerId) :
    (state.closePeer entry peerId).Balanced conns := by
  refine (balanced.dropConns entry peerId).updateEntry (fun networkName mapped => ?_) ?_ ?_ ?_
  · obtain ⟨_, established, named, lists⟩ := balanced.current networkName entry mapped
    exact ⟨established, named, fun other member => lists other (AList.mem_erase.mp member).2⟩
  · intro connId peer _ found member opened
    rwa [AList.lookup_erase_ne (ne_of_open state found member opened)]
  · intro other networkName mapped member
    by_cases same : other = peerId
    · obtain ⟨_, _, named, lists⟩ := balanced.current networkName entry mapped
      exact .inr ⟨(lists other member).1, named, by simp [same]⟩
    · exact .inl (AList.mem_erase.mpr ⟨same, member⟩)
  · rintro other networkName _ ⟨running, named, waiting⟩
    refine ⟨running, named, ?_⟩
    rcases List.mem_append.mp waiting with unissued | issued
    · simp [unissued]
    · simp [issued]

omit [DecidableEq ConnId] in
theorem Balanced.issueEvent {event : PeerContextEvent}
    (taken : state.issueEvent entry event = some next) :
    next.Balanced conns := by
  unfold ForeignState.issueEvent at taken
  split at taken
  · cases taken
    refine balanced.touch ⟨rfl, rfl, fun running => ⟨running, fun peerId waiting => ?_⟩⟩
    rw [if_pos running]
    by_cases same : PeerContextEvent.peerRemoved peerId = event
    · simp [same]
    · simpa [List.mem_erase_of_ne same, same] using waiting
  · cases taken

omit [DecidableEq ConnId] in
theorem Balanced.handleEvent (orderly : state.orderly conns (.handleEvent entry) = true)
    (taken : state.handleEvent entry = some next) : next.Balanced conns := by
  unfold ForeignState.handleEvent at taken
  split at taken
  · cases taken
  dsimp only at taken
  split at taken
  · cases taken
  · rename_i peerId events waiting
    cases taken
    have gone : ¬ state.HasPeer peerId (state.entries entry).network.networkName := by
      simpa [ForeignState.orderly, waiting] using orderly
    have removed := balanced.removePeer gone
    obtain ⟨unlisted, entries⟩ := state.removePeer_frame peerId
      (state.entries entry).network.networkName
    refine removed.updateEntry (fun networkName mapped => ?_) (fun _ _ _ found _ _ => found)
      (fun _ _ _ => .inl) ?_
    · obtain ⟨_, established, named, lists⟩ := removed.current networkName entry mapped
      exact ⟨established, named, lists⟩
    · rintro other networkName listed ⟨running, named, announced⟩
      rw [entries] at running named announced ⊢
      refine ⟨running, named, ?_⟩
      have different : other ≠ peerId := by
        rintro rfl
        rw [← named] at listed
        exact nomatch unlisted.symm.trans listed
      simpa [waiting, different] using announced
  · rename_i events waiting
    cases taken
    refine balanced.touch ⟨rfl, rfl, fun running => ⟨running, fun peerId announced => ?_⟩⟩
    simpa [waiting] using announced

theorem Balanced.clearNext (taken : state.clearNext entry = some next) : next.Balanced conns := by
  obtain ⟨clearing, _, rfl⟩ := Option.map_eq_some_iff.mp taken
  have turns : ∀ clearing, (state.updateEntry entry fun entry =>
      { entry with clearing := clearing }).Balanced conns :=
    fun _ => balanced.touch ⟨rfl, rfl, fun running => ⟨running, fun _ => id⟩⟩
  split
  · exact turns _
  · exact turns _
  · exact (turns _).closePeer _ _
  · exact turns _

omit [DecidableEq ConnId] in
theorem Balanced.exitHandler (orderly : state.orderly conns (.exitHandler entry) = true)
    (taken : state.exitHandler entry = some next) : next.Balanced conns := by
  unfold ForeignState.exitHandler at taken
  simp only [ForeignState.orderly, Bool.and_eq_true, Bool.or_eq_true, List.all_eq_true, beq_iff_eq,
    bne_iff_ne] at orderly
  split at taken
  · cases taken
  cases taken
  have removed := balanced.removeNetworkIfCurrent fun mapped =>
    orderly.2.resolve_left (not_not.mpr mapped)
  obtain ⟨entries, unmapped⟩ := removeNetworkIfCurrent_frame fun network mapped =>
    (balanced.current network entry mapped).2.named.symm
  refine removed.updateEntry (fun networkName mapped => absurd mapped (unmapped networkName))
    (fun _ _ mapped => absurd mapped (unmapped _)) (fun _ _ mapped => absurd mapped (unmapped _)) ?_
  rintro peerId networkName _ ⟨_, _, waiting⟩
  rw [entries] at waiting
  exact absurd (orderly.1 _ waiting) nofun

/-- One orderly step keeps the invariant. -/
theorem Balanced.step {library : SecretLibrary} {action : ForeignAction ConnId}
    (orderly : state.orderly conns action = true)
    (taken : step library conns state action = some next) : next.Balanced conns := by
  cases action with
  | beginCall connId allowed => exact balanced.beginCall taken
  | getOrInsertEntry connId => exact balanced.getOrInsertEntry orderly taken
  | prepared connId => exact balanced.prepared taken
  | ensureHandler connId => exact balanced.ensureHandler taken
  | subscribe connId subscribed => exact balanced.subscribe taken
  | acquireLock connId trusted => exact balanced.acquireLock taken
  | lookUp connId tooMany => exact balanced.lookUp taken
  | lookUpAgain connId => exact balanced.lookUpAgain taken
  | enterConn connId added => exact balanced.enterConn orderly taken
  | addNewPeer connId => exact balanced.addNewPeer orderly taken
  | cancel connId => exact balanced.cancel taken
  | giveUp connId => exact balanced.giveUp orderly taken
  | closeConn peer connId => exact balanced.closeConn taken
  | closePeer entry peerId =>
    cases taken
    exact balanced.closePeer entry peerId
  | issueEvent entry event => exact balanced.issueEvent taken
  | handleEvent entry => exact balanced.handleEvent orderly taken
  | clearNext entry => exact balanced.clearNext taken
  | exitHandler entry => exact balanced.exitHandler orderly taken

end Steps

end ForeignState

def sampleForeignConn (connId : Fin 5) : ForeignConn where
  peerId := if connId = 4 then 7 else 7 + connId.val
  myPeerId := 3
  network :=
    { networkName := "net"
      networkSecret := none
      networkSecretDigest :=
        if connId = 1 then none
        else if connId = 3 then some ⟨List.replicate 32 2, by simp⟩
        else some (sampleSecrets.networkSecretDigest "net" "secret") }
  identityType := .admin

open ForeignState

/-- The first call of a network. -/
def firstCall : List (ForeignAction (Fin 5)) :=
  [.beginCall 0 true, .getOrInsertEntry 0, .prepared 0, .ensureHandler 0, .subscribe 0 true,
    .acquireLock 0 false, .lookUp 0 false, .enterConn 0 true, .addNewPeer 0]

/-- A call that finds the network there, up to the lock and the look for its peer. -/
def laterCall (connId : Fin 5) : List (ForeignAction (Fin 5)) :=
  [.beginCall connId true, .getOrInsertEntry connId, .ensureHandler connId,
    .acquireLock connId false, .lookUp connId false]

/-- The last peer of the network is closed and the network goes with it. -/
def lastPeerGone : List (ForeignAction (Fin 5)) :=
  [.closePeer 0 7, .issueEvent 0 (.peerRemoved 7), .handleEvent 0]

/-- The network goes after a peer without the secret has found it. -/
def goneAfterCheck : List (ForeignAction (Fin 5)) :=
  firstCall ++ [.beginCall 1 true] ++ lastPeerGone ++ [.getOrInsertEntry 1]

/-- The network goes after a peer has got its entry. -/
def goneAfterEntry : List (ForeignAction (Fin 5)) :=
  firstCall ++ laterCall 2 ++ lastPeerGone ++ [.enterConn 2 true, .addNewPeer 2]

/-- A peer with another secret is turned away. -/
def turnedAway : List (ForeignAction (Fin 5)) :=
  firstCall ++ laterCall 3 ++ [.giveUp 3]

/-- The first connection of a peer closes while its second one is added, and the handler closes the
peer that it has found without a connection. -/
def closedMeanwhile : List (ForeignAction (Fin 5)) :=
  firstCall ++ laterCall 2 ++ [.enterConn 2 true, .addNewPeer 2] ++ laterCall 4 ++
    [.lookUpAgain 4, .closeConn 0 0, .issueEvent 0 .peerConnRemoved, .handleEvent 0] ++
    List.replicate 4 (.clearNext 0) ++ [.enterConn 4 true]

/-- Two peers with the secret, of which the first has two connections and the second is closed. -/
def orderlyCalls : List (ForeignAction (Fin 5)) :=
  firstCall ++ laterCall 2 ++ [.enterConn 2 true, .addNewPeer 2] ++ laterCall 4 ++
    [.lookUpAgain 4, .enterConn 4 true, .closePeer 0 9, .issueEvent 0 (.peerRemoved 9),
      .handleEvent 0]

end EasyTier.Peers
