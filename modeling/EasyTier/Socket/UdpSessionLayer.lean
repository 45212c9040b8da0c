import EasyTier.Data.AssocMap
import EasyTier.Semantics.System

/-! # Sessions over one UDP socket

Sessions are registered by the peer's address, with the connection id or the protocol. What can
close a session (its object, its tasks, the task that acknowledges it, the attempt that set it up)
knows the key and not the entry: it removes whatever stands under its key, and signals it closed.
-/

namespace EasyTier.Socket

open Data Semantics

inductive UdpSessionProtocol where
  | wireGuard
  | quic
  deriving DecidableEq

/-- The keys of both registries. -/
inductive UdpSessionKey (Addr : Type) where
  | easyTier (peerAddr : Addr) (connId : Nat)
  | classified (protocol : UdpSessionProtocol) (peerAddr : Addr)
  deriving DecidableEq

/-- A session by its identity: its rings and the channel that signals it closed. -/
structure SessionId where
  index : Nat
  deriving DecidableEq

/-- What may close a session. A task that acknowledges a new session owns the session's object
until the acknowledgement is sent. -/
inductive CloserRole where
  | object
  | sendTask
  | shutdownTask
  | sackTask (owns : Bool)
  deriving DecidableEq

/-- Something alive that may close a session, and the key by which it does. -/
structure Closer (Addr : Type) where
  session : SessionId
  key : UdpSessionKey Addr
  role : CloserRole
  deriving DecidableEq

structure PendingUdpSessionConnect (Addr : Type) where
  session : SessionId
  expectedAddr : Addr
  magic : Nat

/-- A call of `connect` that has not returned: the key is filled in when the session is
registered. -/
structure ConnectAttempt (Addr : Type) where
  connId : Nat
  sessionKey : Option (UdpSessionKey Addr)

/-- The sessions over one socket, and the tasks that close them. -/
structure UdpSessionLayer (Addr : Type) where
  nextSession : Nat
  /-- `sessions` and `classified_sessions`. -/
  registry : AList fun _ : UdpSessionKey Addr => SessionId
  pendingConnects : AList fun _ : Nat => PendingUdpSessionConnect Addr
  attempts : AList fun _ : SessionId => ConnectAttempt Addr
  closers : List (Closer Addr)
  /-- Sessions whose receiving end is gone. -/
  queuesClosed : List SessionId
  /-- Sessions that were signalled closed. -/
  closed : List SessionId
  shutdown : Bool

/-- The steps of the layer. -/
inductive UdpLayerLabel (Addr : Type) where
  /-- A SYN arrives; `room` says whether a session can be handed to the listener, and a payload of
  the wrong length has no magic number. -/
  | syn (peerAddr : Addr) (connId : Nat) (magic : Option Nat) (room : Bool)
  | sackSent (closer : Closer Addr) (sent : Bool)
  | connect (remoteAddr : Addr) (connId magic : Nat)
  | sack (recvAddr : Addr) (connId : Nat) (magic : Option Nat)
  | connected (session : SessionId)
  /-- A call of `connect` fails or is abandoned. -/
  | connectDropped (session : SessionId)
  | openClassified (protocol : UdpSessionProtocol) (remoteAddr : Addr)
  /-- A datagram for a session arrives; `accepts` says whether a session of its protocol can be
  accepted. -/
  | datagram (key : UdpSessionKey Addr) (accepts : Bool)
  /-- The receiving end of a session is dropped before the rest of it. -/
  | receiverDropped (closer : Closer Addr)
  | sendError (closer : Closer Addr)
  | sessionDropped (closer : Closer Addr)
  /-- The layer is dropped, or its socket fails. -/
  | shutDown
  | shutdownSeen (closer : Closer Addr)

def UdpSessionKey.isClassified {Addr : Type} : UdpSessionKey Addr → Bool
  | .easyTier _ _ => false
  | .classified _ _ => true

namespace UdpSessionLayer

variable {Addr : Type} [DecidableEq Addr] (layer : UdpSessionLayer Addr)

def start : UdpSessionLayer Addr := ⟨0, ∅, ∅, ∅, [], [], [], false⟩

/-- `close_udp_session` and `close_classified_udp_session`: remove the entry of a key and signal
it. -/
def closeUdpSession (key : UdpSessionKey Addr) : UdpSessionLayer Addr :=
  { layer with
    registry := layer.registry.erase key
    closed := (layer.registry.lookup key).toList ++ layer.closed }

/-- `UdpSessionClose::close`: close by key, then signal the own channel. -/
def close (closer : Closer Addr) : UdpSessionLayer Addr :=
  let removed := layer.closeUdpSession closer.key
  { removed with closed := closer.session :: removed.closed }

def register (key : UdpSessionKey Addr) (session : SessionId) : UdpSessionLayer Addr :=
  { layer with registry := layer.registry.insert key session }

/-- `UdpSession::new`: the object and its two tasks. After a shutdown it is closed from the
start. -/
def newSession (session : SessionId) (key : UdpSessionKey Addr) : UdpSessionLayer Addr :=
  { layer with
    closers := [⟨session, key, .object⟩, ⟨session, key, .sendTask⟩,
      ⟨session, key, .shutdownTask⟩] ++ layer.closers
    closed := if layer.shutdown then session :: layer.closed else layer.closed }

/-- Register a session with fresh rings and create its object. -/
def openSession (key : UdpSessionKey Addr) : UdpSessionLayer Addr :=
  let session : SessionId := ⟨layer.nextSession⟩
  ({ layer with nextSession := layer.nextSession + 1 }.register key session).newSession session key

/-- The drop of a session's object: it closes, its tasks are aborted and its receiving end goes. -/
def dropSession (closer : Closer Addr) : UdpSessionLayer Addr :=
  let after := layer.close closer
  { after with
    closers := after.closers.filter fun other =>
      other.session ≠ closer.session ∨ other.role = .sackTask true ∨ other.role = .sackTask false
    queuesClosed := closer.session :: after.queuesClosed }

/-- `handle_new_easy_tier_mux_connect`. -/
def handleSyn (key : UdpSessionKey Addr) (room : Bool) : UdpSessionLayer Addr :=
  (layer.registry.lookup key).elim
    (if room then
      let opened := layer.openSession key
      { opened with closers := ⟨⟨layer.nextSession⟩, key, .sackTask true⟩ :: opened.closers }
    else
      layer)
    fun session => { layer with closers := ⟨session, key, .sackTask false⟩ :: layer.closers }

/-- The end of a task that sends an acknowledgement. -/
def finishSack (closer : Closer Addr) (sent : Bool) : UdpSessionLayer Addr :=
  let ended := { layer with closers := layer.closers.erase closer }
  if sent then
    ended
  else if closer.role = .sackTask true then
    (ended.closeUdpSession closer.key).dropSession closer
  else
    ended.closeUdpSession closer.key

/-- A call of `connect` reserves its connection id. -/
def startConnect (remoteAddr : Addr) (connId magic : Nat) : UdpSessionLayer Addr :=
  { layer with
    nextSession := layer.nextSession + 1
    pendingConnects := layer.pendingConnects.insert connId
      { session := ⟨layer.nextSession⟩, expectedAddr := remoteAddr, magic := magic }
    attempts := layer.attempts.insert ⟨layer.nextSession⟩ { connId := connId, sessionKey := none } }

/-- The attempt that a SACK answers: its magic number fits and it has no key yet. -/
def answered? (connId : Nat) (magic : Option Nat) : Option (PendingUdpSessionConnect Addr) :=
  (layer.pendingConnects.lookup connId).filter fun pending =>
    some pending.magic = magic ∧
      ((layer.attempts.lookup pending.session).bind (·.sessionKey)).isNone

/-- `dispatch_sack_packet` and `move_pending_udp_session_sender`. If the call of `connect` is gone,
the session is closed again at once. -/
def handleSack (recvAddr : Addr) (connId : Nat)
    (pending : PendingUdpSessionConnect Addr) : UdpSessionLayer Addr :=
  let removed := { layer with pendingConnects := layer.pendingConnects.erase connId }
  let newKey := .easyTier recvAddr connId
  if (layer.registry.lookup newKey).isSome then
    removed
  else
    let moved := removed.register newKey pending.session
    (layer.attempts.lookup pending.session).elim (moved.closeUdpSession newKey) fun attempt =>
      { moved with
        attempts := moved.attempts.insert pending.session
          { attempt with sessionKey := some newKey } }

/-- The drop of the guard of a call of `connect`. -/
def dropAttempt (session : SessionId) (attempt : ConnectAttempt Addr) : UdpSessionLayer Addr :=
  let gone := { layer with
    pendingConnects := layer.pendingConnects.erase attempt.connId
    attempts := layer.attempts.erase session
    queuesClosed := session :: layer.queuesClosed }
  attempt.sessionKey.elim gone gone.closeUdpSession

/-- `dispatch_data_packet` and `dispatch_classified_udp_datagram`. -/
def handleDatagram (key : UdpSessionKey Addr) (accepts : Bool) : UdpSessionLayer Addr :=
  (layer.registry.lookup key).elim
    (if key.isClassified ∧ accepts then layer.openSession key else layer)
    fun session => if session ∈ layer.queuesClosed then layer.closeUdpSession key else layer

/-- `close_all_udp_sessions` and `close_all_classified_udp_sessions`, after the signal to all
tasks. -/
def shutDownAll : UdpSessionLayer Addr :=
  { layer with
    shutdown := true
    pendingConnects := ∅
    closed := (layer.registry.entries.map fun entry => entry.2) ++ layer.closed
    registry := ∅ }

/-- A closer of the given role that is alive. -/
def Alive (closer : Closer Addr) (role : CloserRole) : Prop :=
  closer ∈ layer.closers ∧ closer.role = role

instance (closer : Closer Addr) (role : CloserRole) :
    Decidable (layer.Alive closer role) := inferInstanceAs (Decidable (_ ∧ _))

def step? : UdpLayerLabel Addr → Option (UdpSessionLayer Addr)
  | .syn peerAddr connId magic room =>
    some (if magic.isSome then layer.handleSyn (.easyTier peerAddr connId) room else layer)
  | .sackSent closer sent =>
    if layer.Alive closer (.sackTask true) ∨ layer.Alive closer (.sackTask false) then
      some (layer.finishSack closer sent)
    else
      none
  | .connect remoteAddr connId magic =>
    if (layer.registry.lookup (.easyTier remoteAddr connId)).isNone ∧
        (layer.pendingConnects.lookup connId).isNone then
      some (layer.startConnect remoteAddr connId magic)
    else
      none
  | .sack recvAddr connId magic =>
    some ((layer.answered? connId magic).elim layer (layer.handleSack recvAddr connId))
  | .connected session =>
    (layer.attempts.lookup session).bind fun attempt => attempt.sessionKey.map fun key =>
      { layer with
        pendingConnects := layer.pendingConnects.erase attempt.connId
        attempts := layer.attempts.erase session }.newSession session key
  | .connectDropped session =>
    (layer.attempts.lookup session).map (layer.dropAttempt session)
  | .openClassified protocol remoteAddr =>
    let key := .classified protocol remoteAddr
    if (layer.registry.lookup key).isNone then some (layer.openSession key) else none
  | .datagram key accepts => some (layer.handleDatagram key accepts)
  | .receiverDropped closer =>
    if layer.Alive closer .object then
      some { layer with queuesClosed := closer.session :: layer.queuesClosed }
    else
      none
  | .sendError closer =>
    if layer.Alive closer .sendTask then
      some ({ layer with closers := layer.closers.erase closer }.close closer)
    else
      none
  | .sessionDropped closer =>
    if layer.Alive closer .object then some (layer.dropSession closer) else none
  | .shutDown => some layer.shutDownAll
  | .shutdownSeen closer =>
    if layer.Alive closer .shutdownTask ∧ layer.shutdown then
      some ({ layer with
        closers := (layer.closers.erase closer).filter fun other : Closer Addr =>
          other.session ≠ closer.session ∨ other.role ≠ CloserRole.sendTask }.close closer)
    else
      none

/-- The layer under any sequence of its steps. -/
def system : System (UdpSessionLayer Addr) (UdpLayerLabel Addr) :=
  System.ofStep (· = start) step?

/-! ## What closing should do -/

/-- The session that a step closes. -/
def closing? : UdpLayerLabel Addr → Option SessionId
  | .sackSent closer sent => if sent then none else some closer.session
  | .sack _ connId magic => (layer.answered? connId magic).bind fun pending =>
    if (layer.attempts.lookup pending.session).isNone then some pending.session else none
  | .connectDropped session => some session
  | .datagram key _ => (layer.registry.lookup key).filter (· ∈ layer.queuesClosed)
  | .sendError closer | .sessionDropped closer | .shutdownSeen closer => some closer.session
  | _ => none

/-- The session is registered no more and was told if it was registered; every other session stays
registered, and no other one is signalled. -/
structure OnlyCloses (session : SessionId) (before after : UdpSessionLayer Addr) : Prop where
  removed : ∀ key, after.registry.lookup key ≠ some session
  told : ∀ key, before.registry.lookup key = some session → session ∈ after.closed
  registered : ∀ key other, before.registry.lookup key = some other → other ≠ session →
    after.registry.lookup key = some other
  signalled : ∀ other ∈ after.closed, other ∈ before.closed ∨ other = session

/-- The key under which a step registers a session. -/
def registers? : UdpLayerLabel Addr → Option (UdpSessionKey Addr)
  | .syn peerAddr connId magic room =>
    if magic.isSome ∧ room then some (.easyTier peerAddr connId) else none
  | .sack recvAddr connId magic =>
    (layer.answered? connId magic).map fun _ => .easyTier recvAddr connId
  | .openClassified protocol remoteAddr => some (.classified protocol remoteAddr)
  | .datagram key accepts => if key.isClassified ∧ accepts then some key else none
  | _ => none

/-- Nothing is left that could close an earlier session of the key. -/
def KeyReleased (key : UdpSessionKey Addr) : Prop :=
  (∀ closer ∈ layer.closers, closer.key ≠ key) ∧
    ∀ session attempt, layer.attempts.lookup session = some attempt → attempt.sessionKey ≠ some key

/-- A session is registered only under a key that was released. -/
def NoEarlyReuse (label : UdpLayerLabel Addr) : Prop :=
  ∀ key, layer.registers? label = some key → layer.registry.lookup key = none →
    layer.KeyReleased key

/-- A session is registered under a key, or may be closed by it. -/
inductive Holds (session : SessionId) (key : UdpSessionKey Addr) : Prop
  | registered (stored : layer.registry.lookup key = some session)
  | closer (role : CloserRole) (alive : ⟨session, key, role⟩ ∈ layer.closers)
  | attempt (attempt : ConnectAttempt Addr) (started : layer.attempts.lookup session = some attempt)
      (isKey : attempt.sessionKey = some key)

/-- What may close a session holds the key of that session and of no other one. -/
structure Owned : Prop where
  paired : ∀ session key, layer.Holds session key → ∀ other found,
    layer.registry.lookup other = some found → (other = key ↔ found = session)
  issued : ∀ session key, layer.Holds session key → session.index < layer.nextSession
  started : ∀ session attempt, layer.attempts.lookup session = some attempt →
    session.index < layer.nextSession ∧
      (attempt.sessionKey = none → ∀ key, ¬ layer.Holds session key)
  pending : ∀ connId pending, layer.pendingConnects.lookup connId = some pending →
    ∃ attempt, layer.attempts.lookup pending.session = some attempt ∧ attempt.connId = connId

/-! ## Closing by a key that is held -/

section Closing

variable {layer before middle after : UdpSessionLayer Addr} {session : SessionId}
  {key : UdpSessionKey Addr} {closer : Closer Addr}

theorem OnlyCloses.of_eq (closes : OnlyCloses session before middle)
    (registry : after.registry = middle.registry) (closed : after.closed = middle.closed) :
    OnlyCloses session before after where
  removed := registry ▸ closes.removed
  told := closed ▸ closes.told
  registered := registry ▸ closes.registered
  signalled := closed ▸ closes.signalled

theorem Owned.onlyCloses (owned : layer.Owned) (holds : layer.Holds session key) :
    OnlyCloses session layer (layer.closeUdpSession key) where
  removed := by
    intro other stored
    obtain ⟨apart, earlier⟩ := lookup_erase_iff.mp stored
    exact apart ((owned.paired session key holds other session earlier).mpr rfl)
  told := by
    intro other stored
    obtain rfl := (owned.paired session key holds other session stored).mpr rfl
    exact List.mem_append_left _ (Option.mem_toList.mpr stored)
  registered := by
    intro other found stored different
    have apart : other ≠ key := fun same =>
      different ((owned.paired session key holds other found stored).mp same)
    exact lookup_erase_iff.mpr ⟨apart, stored⟩
  signalled := by
    intro other signalled
    rcases List.mem_append.mp signalled with removed | earlier
    · exact .inr ((owned.paired session key holds key other (Option.mem_toList.mp removed)).mp rfl)
    · exact .inl earlier

/-- Signalling the session once more. -/
theorem OnlyCloses.signal (closes : OnlyCloses session before middle)
    (registry : after.registry = middle.registry)
    (closed : after.closed = session :: middle.closed) :
    OnlyCloses session before after where
  removed := registry ▸ closes.removed
  told := fun _ _ => closed ▸ List.mem_cons_self
  registered := registry ▸ closes.registered
  signalled := by
    intro other signalled
    rw [closed] at signalled
    rcases List.mem_cons.mp signalled with same | earlier
    · exact .inr same
    · exact closes.signalled other earlier

theorem Owned.onlyCloses_close (owned : layer.Owned) (alive : closer ∈ layer.closers) :
    OnlyCloses closer.session layer (layer.close closer) :=
  (owned.onlyCloses (.closer closer.role alive)).signal rfl rfl

theorem closeUdpSession_idem (layer : UdpSessionLayer Addr) (key : UdpSessionKey Addr) :
    (layer.closeUdpSession key).closeUdpSession key = layer.closeUdpSession key := by
  have vacant : (layer.registry.erase key).lookup key = none := AList.lookup_erase key _
  have absent : key ∉ layer.registry.erase key := AList.lookup_eq_none.mp vacant
  have erased : (layer.registry.erase key).erase key = layer.registry.erase key :=
    AList.ext (List.kerase_of_notMem_keys absent)
  simp only [closeUdpSession, vacant, erased, Option.toList_none, List.nil_append]

theorem Owned.onlyCloses_finishSack (owned : layer.Owned) (alive : closer ∈ layer.closers) :
    OnlyCloses closer.session layer (layer.finishSack closer false) := by
  have byKey := owned.onlyCloses (.closer closer.role alive)
  unfold finishSack
  rw [if_neg Bool.false_ne_true]
  split
  · -- The session goes with the task, and closes by the key once more.
    refine byKey.signal ?_ ?_
    · exact congrArg (·.registry) (closeUdpSession_idem layer closer.key)
    · exact congrArg (closer.session :: ·.closed) (closeUdpSession_idem layer closer.key)
  · exact byKey.of_eq rfl rfl

theorem Owned.onlyCloses_dropAttempt (owned : layer.Owned) {attempt : ConnectAttempt Addr}
    (started : layer.attempts.lookup session = some attempt) :
    OnlyCloses session layer (layer.dropAttempt session attempt) := by
  unfold dropAttempt
  cases isKey : attempt.sessionKey with
  | none =>
    have unplaced := (owned.started session attempt started).2 isKey
    exact ⟨fun key stored => unplaced key (.registered stored),
      fun key stored => absurd (.registered stored) (unplaced key),
      fun _ _ stored _ => stored, fun _ signalled => .inl signalled⟩
  | some key => exact (owned.onlyCloses (.attempt attempt started isKey)).of_eq rfl rfl

end Closing

/-! ## What the steps keep -/

section Keeping

variable {layer before after : UdpSessionLayer Addr} {session : SessionId}
  {key : UdpSessionKey Addr} {closer : Closer Addr}

theorem Holds.of_sub (held : after.Holds session key)
    (registry : ∀ key found, after.registry.lookup key = some found →
      before.registry.lookup key = some found)
    (closers : ∀ closer ∈ after.closers, before.Holds closer.session closer.key)
    (attempts : ∀ session attempt, after.attempts.lookup session = some attempt →
      before.attempts.lookup session = some attempt) : before.Holds session key := by
  cases held with
  | registered stored => exact .registered (registry key session stored)
  | closer role alive => exact closers _ alive
  | attempt attempt started isKey => exact .attempt attempt (attempts session attempt started) isKey

section

variable (owned : before.Owned)
    (registry : ∀ key found, after.registry.lookup key = some found →
      before.registry.lookup key = some found)
include owned registry

/-- No new holder. -/
theorem Owned.of_sub
    (closers : ∀ closer ∈ after.closers, before.Holds closer.session closer.key)
    (attempts : ∀ session attempt, after.attempts.lookup session = some attempt →
      before.attempts.lookup session = some attempt)
    (pending : ∀ connId pending, after.pendingConnects.lookup connId = some pending →
      ∃ attempt, after.attempts.lookup pending.session = some attempt ∧ attempt.connId = connId)
    (issued : after.nextSession = before.nextSession) : after.Owned where
  paired := fun session key held other found stored =>
    owned.paired session key (held.of_sub registry closers attempts) other found
      (registry other found stored)
  issued := fun session key held =>
    issued ▸ owned.issued session key (held.of_sub registry closers attempts)
  started := by
    intro session attempt started
    obtain ⟨bound, unplaced⟩ := owned.started session attempt (attempts session attempt started)
    exact ⟨issued ▸ bound,
      fun noKey key held => unplaced noKey key (held.of_sub registry closers attempts)⟩
  pending := pending

/-- Fewer entries and closers. -/
theorem Owned.shrink
    (closers : ∀ closer ∈ after.closers, closer ∈ before.closers)
    (attempts : after.attempts = before.attempts)
    (pending : ∀ connId pending, after.pendingConnects.lookup connId = some pending →
      before.pendingConnects.lookup connId = some pending)
    (issued : after.nextSession = before.nextSession) : after.Owned :=
  owned.of_sub registry (fun closer alive => .closer closer.role (closers closer alive))
    (fun _ _ started => attempts ▸ started)
    (fun connId found stored => attempts ▸ owned.pending connId found (pending connId found stored))
    issued

end

section

variable (owned : layer.Owned) {closers : List (Closer Addr)}
include owned

theorem Owned.closeUdpSession (key : UdpSessionKey Addr) : (layer.closeUdpSession key).Owned :=
  owned.shrink (fun _ _ found => (lookup_erase_iff.mp found).2) (fun _ alive => alive) rfl
    (fun _ _ stored => stored) rfl

theorem Owned.dropClosers (fewer : ∀ closer ∈ closers, closer ∈ layer.closers) :
    ({ layer with closers := closers } : UdpSessionLayer Addr).Owned :=
  owned.shrink (fun _ _ found => found) fewer rfl (fun _ _ stored => stored) rfl

theorem Owned.close (closer : Closer Addr) : (layer.close closer).Owned :=
  (owned.closeUdpSession closer.key).shrink (fun _ _ found => found) (fun _ alive => alive) rfl
    (fun _ _ stored => stored) rfl

theorem Owned.dropSession (closer : Closer Addr) : (layer.dropSession closer).Owned :=
  (owned.close closer).shrink (fun _ _ found => found)
    (fun _ alive => (List.mem_filter.mp alive).1) rfl (fun _ _ stored => stored) rfl

theorem Owned.finishSack (closer : Closer Addr) (sent : Bool) :
    (layer.finishSack closer sent).Owned := by
  have ended :
      ({ layer with closers := layer.closers.erase closer } : UdpSessionLayer Addr).Owned :=
    owned.dropClosers fun _ alive => List.mem_of_mem_erase alive
  unfold UdpSessionLayer.finishSack
  split
  · exact ended
  · split
    · exact (ended.closeUdpSession closer.key).dropSession closer
    · exact ended.closeUdpSession closer.key

omit owned in
theorem holds_of_mem_append (held : ∀ closer ∈ closers, layer.Holds closer.session closer.key)
    (alive : closer ∈ closers ++ layer.closers) : layer.Holds closer.session closer.key := by
  rcases List.mem_append.mp alive with fresh | earlier
  · exact held closer fresh
  · exact .closer closer.role earlier

/-- More closers of sessions by keys that hold them. -/
theorem Owned.addClosers (closers : List (Closer Addr)) {closed : List SessionId}
    (held : ∀ closer ∈ closers, layer.Holds closer.session closer.key) :
    ({ layer with closers := closers ++ layer.closers, closed := closed } :
      UdpSessionLayer Addr).Owned :=
  owned.of_sub (fun _ _ found => found) (fun _ alive => holds_of_mem_append held alive)
    (fun _ _ started => started) owned.pending rfl

omit owned in
theorem Holds.of_mem_newSession (held : layer.Holds session key)
    (fresh : closer ∈ [⟨session, key, .object⟩, ⟨session, key, .sendTask⟩,
      ⟨session, key, .shutdownTask⟩]) : layer.Holds closer.session closer.key := by
  simp only [List.mem_cons, List.not_mem_nil, or_false] at fresh
  rcases fresh with rfl | rfl | rfl <;> exact held

theorem Owned.newSession (held : layer.Holds session key) : (layer.newSession session key).Owned :=
  owned.addClosers _ fun _ fresh => held.of_mem_newSession fresh

end

theorem KeyReleased.not_holds (released : layer.KeyReleased key)
    (vacant : layer.registry.lookup key = none) (session : SessionId) :
    ¬ layer.Holds session key := by
  rintro (stored | ⟨role, alive⟩ | ⟨attempt, started, isKey⟩)
  · cases vacant.symm.trans stored
  · exact released.1 _ alive rfl
  · exact released.2 session attempt started isKey

/-- A session that nothing holds is registered under a key that nothing holds. -/
structure Places (session : SessionId) (key : UdpSessionKey Addr)
    (before after : UdpSessionLayer Addr) :
    Prop where
  free : ∀ other, ¬ before.Holds other key
  unplaced : ∀ other, ¬ before.Holds session other
  registry : after.registry = before.registry.insert key session
  closers : after.closers = before.closers
  issued : before.nextSession ≤ after.nextSession
  index : session.index < after.nextSession
  attempts : ∀ other attempt, after.attempts.lookup other = some attempt →
    (other = session ∧ attempt.sessionKey = some key) ∨
      (other ≠ session ∧ before.attempts.lookup other = some attempt)
  pending : ∀ connId pending, after.pendingConnects.lookup connId = some pending →
    ∃ attempt, after.attempts.lookup pending.session = some attempt ∧ attempt.connId = connId

theorem Places.holds {other : SessionId} {otherKey : UdpSessionKey Addr}
    (places : Places session key before after) (held : after.Holds other otherKey) :
    (other = session ∧ otherKey = key) ∨ before.Holds other otherKey := by
  cases held with
  | registered stored =>
    rw [places.registry, lookup_insert_eq] at stored
    split at stored
    · rename_i same
      cases stored
      exact .inl ⟨rfl, same⟩
    · exact .inr (.registered stored)
  | closer role alive => exact .inr (.closer role (places.closers ▸ alive))
  | attempt attempt started isKey =>
    rcases places.attempts other attempt started with ⟨same, placed⟩ | ⟨_, earlier⟩
    · rw [placed] at isKey
      cases isKey
      exact .inl ⟨same, rfl⟩
    · exact .inr (.attempt attempt earlier isKey)

theorem Owned.place (owned : before.Owned) (places : Places session key before after) :
    after.Owned where
  paired := by
    intro holder holderKey held other found stored
    rw [places.registry, lookup_insert_eq] at stored
    split at stored
    · rename_i same
      cases stored
      subst same
      rcases places.holds held with ⟨rfl, rfl⟩ | earlier
      · exact iff_of_true rfl rfl
      · refine iff_of_false ?_ ?_
        · rintro rfl
          exact places.free holder earlier
        · rintro rfl
          exact places.unplaced holderKey earlier
    · rename_i apart
      rcases places.holds held with ⟨rfl, rfl⟩ | earlier
      · refine iff_of_false apart ?_
        rintro rfl
        exact places.unplaced other (.registered stored)
      · exact owned.paired holder holderKey earlier other found stored
  issued := by
    intro holder holderKey held
    rcases places.holds held with ⟨rfl, _⟩ | earlier
    · exact places.index
    · exact Nat.lt_of_lt_of_le (owned.issued holder holderKey earlier) places.issued
  started := by
    intro other attempt started
    rcases places.attempts other attempt started with ⟨rfl, placed⟩ | ⟨apart, earlier⟩
    · refine ⟨places.index, fun noKey => ?_⟩
      cases noKey.symm.trans placed
    · obtain ⟨bound, unplaced⟩ := owned.started other attempt earlier
      refine ⟨Nat.lt_of_lt_of_le bound places.issued, fun noKey otherKey held => ?_⟩
      rcases places.holds held with ⟨same, _⟩ | holds
      · exact apart same
      · exact unplaced noKey otherKey holds
  pending := places.pending

theorem Owned.openSession (owned : layer.Owned) (vacant : layer.registry.lookup key = none)
    (released : layer.KeyReleased key) : (layer.openSession key).Owned := by
  have places : Places ⟨layer.nextSession⟩ key layer
      ({ layer with nextSession := layer.nextSession + 1 }.register key ⟨layer.nextSession⟩) := {
    free := released.not_holds vacant
    unplaced := fun other held => Nat.lt_irrefl _ (owned.issued _ other held)
    registry := rfl
    closers := rfl
    issued := Nat.le_succ _
    index := Nat.lt_succ_self _
    attempts := by
      intro other attempt started
      refine .inr ⟨?_, started⟩
      rintro rfl
      exact Nat.lt_irrefl _ (owned.started _ attempt started).1
    pending := owned.pending }
  exact (owned.place places).newSession (.registered (AList.lookup_insert _))

theorem Owned.handleSyn (owned : layer.Owned) (room : Bool)
    (released : room = true → layer.registry.lookup key = none → layer.KeyReleased key) :
    (layer.handleSyn key room).Owned := by
  unfold UdpSessionLayer.handleSyn
  cases found : layer.registry.lookup key with
  | none =>
    split
    · rename_i isRoom
      have opened := owned.openSession found (released isRoom found)
      refine opened.addClosers [⟨⟨layer.nextSession⟩, key, .sackTask true⟩] fun closer fresh => ?_
      obtain rfl := List.mem_singleton.mp fresh
      exact .registered (AList.lookup_insert _)
    · exact owned
  | some registered =>
    refine owned.addClosers [⟨registered, key, .sackTask false⟩] fun closer fresh => ?_
    obtain rfl := List.mem_singleton.mp fresh
    exact .registered found

variable {connId : Nat} {pending : PendingUdpSessionConnect Addr}

omit [DecidableEq Addr] in
theorem answered?_eq_some {magic : Option Nat}
    (answered : layer.answered? connId magic = some pending) :
    layer.pendingConnects.lookup connId = some pending ∧
      ∀ attempt, layer.attempts.lookup pending.session = some attempt →
        attempt.sessionKey = none := by
  obtain ⟨found, passes⟩ := Option.filter_eq_some_iff.mp answered
  refine ⟨found, fun attempt started => ?_⟩
  have noKey := (of_decide_eq_true passes).2
  rw [started, Option.bind_some, Option.isNone_iff_eq_none] at noKey
  exact noKey

theorem Owned.handleSack (owned : layer.Owned) {recvAddr : Addr} {magic : Option Nat}
    (answered : layer.answered? connId magic = some pending)
    (released : layer.registry.lookup (.easyTier recvAddr connId) = none →
      layer.KeyReleased (.easyTier recvAddr connId)) :
    (layer.handleSack recvAddr connId pending).Owned := by
  obtain ⟨found, noKey⟩ := answered?_eq_some answered
  obtain ⟨attempt, started, _⟩ := owned.pending connId pending found
  obtain ⟨bound, unplaced⟩ := owned.started pending.session attempt started
  unfold UdpSessionLayer.handleSack
  dsimp only
  split
  · exact owned.shrink (fun _ _ found => found) (fun _ alive => alive) rfl
      (fun _ _ stored => (lookup_erase_iff.mp stored).2) rfl
  rename_i occupied
  have vacant := Option.not_isSome_iff_eq_none.mp occupied
  rw [started, Option.elim_some]
  -- The call of `connect` learns the key in the step that registers the session.
  refine owned.place ⟨(released vacant).not_holds vacant, unplaced (noKey attempt started), rfl,
    rfl, le_rfl, bound, ?_, ?_⟩
  · intro other otherAttempt otherStarted
    rw [lookup_insert_eq] at otherStarted
    split at otherStarted
    · rename_i same
      cases otherStarted
      exact .inl ⟨same, rfl⟩
    · rename_i apart
      exact .inr ⟨apart, otherStarted⟩
  · intro otherId other stored
    obtain ⟨_, earlier⟩ := lookup_erase_iff.mp stored
    obtain ⟨otherAttempt, otherStarted, sameId⟩ := owned.pending otherId other earlier
    rw [lookup_insert_eq]
    split
    · rename_i same
      rw [same, started] at otherStarted
      cases otherStarted
      exact ⟨_, rfl, sameId⟩
    · exact ⟨otherAttempt, otherStarted, sameId⟩

theorem Holds.of_startConnect {remoteAddr : Addr} {magic : Nat}
    (held : (layer.startConnect remoteAddr connId magic).Holds session key) :
    layer.Holds session key := by
  cases held with
  | registered stored => exact .registered stored
  | closer role alive => exact .closer role alive
  | attempt attempt started isKey =>
    rw [startConnect, lookup_insert_eq] at started
    split at started
    · cases started
      cases isKey
    · exact .attempt attempt started isKey

theorem Owned.startConnect (owned : layer.Owned) (remoteAddr : Addr) (connId magic : Nat) :
    (layer.startConnect remoteAddr connId magic).Owned where
  paired := fun session key held => owned.paired session key held.of_startConnect
  issued := fun session key held => Nat.lt_succ_of_lt
    (owned.issued session key held.of_startConnect)
  started := by
    intro session attempt started
    rw [UdpSessionLayer.startConnect, lookup_insert_eq] at started
    split at started
    · rename_i same
      subst same
      exact ⟨Nat.lt_succ_self _,
        fun _ key held => Nat.lt_irrefl _ (owned.issued _ key held.of_startConnect)⟩
    · obtain ⟨bound, unplaced⟩ := owned.started session attempt started
      exact ⟨Nat.lt_succ_of_lt bound, fun noKey key held => unplaced noKey key held.of_startConnect⟩
  pending := by
    intro otherId other stored
    rw [UdpSessionLayer.startConnect, lookup_insert_eq] at stored
    split at stored
    · rename_i same
      cases stored
      exact ⟨_, AList.lookup_insert _, same.symm⟩
    obtain ⟨attempt, started, sameId⟩ := owned.pending otherId other stored
    have apart : other.session ≠ ⟨layer.nextSession⟩ := by
      intro same
      have bound := (owned.started other.session attempt started).1
      rw [same] at bound
      exact Nat.lt_irrefl _ bound
    exact ⟨attempt, (AList.lookup_insert_ne apart).trans started, sameId⟩

section

variable (owned : layer.Owned) {attempt : ConnectAttempt Addr}
    (started : layer.attempts.lookup session = some attempt)
include owned started

/-- A call of `connect` ends, perhaps with a session that it held. -/
theorem Owned.forget (closers : List (Closer Addr))
    (held : ∀ closer ∈ closers, layer.Holds closer.session closer.key)
    (queuesClosed closed : List SessionId) :
    ({ layer with
      pendingConnects := layer.pendingConnects.erase attempt.connId
      attempts := layer.attempts.erase session
      closers := closers ++ layer.closers
      queuesClosed := queuesClosed
      closed := closed } : UdpSessionLayer Addr).Owned := by
  refine owned.of_sub (fun _ _ found => found) (fun _ alive => holds_of_mem_append held alive)
    (fun _ _ stored => (lookup_erase_iff.mp stored).2) (fun otherId other stored => ?_) rfl
  obtain ⟨apart, earlier⟩ := lookup_erase_iff.mp stored
  obtain ⟨otherAttempt, otherStarted, sameId⟩ := owned.pending otherId other earlier
  refine ⟨otherAttempt, lookup_erase_iff.mpr ⟨?_, otherStarted⟩, sameId⟩
  intro same
  rw [same, started] at otherStarted
  cases otherStarted
  exact apart sameId.symm

theorem Owned.dropAttempt :
    (layer.dropAttempt session attempt).Owned := by
  have gone := owned.forget started [] (fun _ fresh => nomatch fresh)
    (session :: layer.queuesClosed) layer.closed
  unfold UdpSessionLayer.dropAttempt
  cases attempt.sessionKey with
  | none => exact gone
  | some key => exact gone.closeUdpSession key

end

theorem Owned.handleDatagram (owned : layer.Owned) (accepts : Bool)
    (released : key.isClassified ∧ accepts → layer.registry.lookup key = none →
      layer.KeyReleased key) : (layer.handleDatagram key accepts).Owned := by
  unfold UdpSessionLayer.handleDatagram
  cases found : layer.registry.lookup key with
  | none =>
    split
    · rename_i accepted
      exact owned.openSession found (released accepted found)
    · exact owned
  | some registered =>
    rw [Option.elim_some]
    split
    · exact owned.closeUdpSession key
    · exact owned

theorem owned_start : (start : UdpSessionLayer Addr).Owned where
  paired := fun _ _ _ _ _ stored => nomatch stored
  issued := by
    rintro _ _ (stored | ⟨_, alive⟩ | ⟨_, started, _⟩)
    · cases stored
    · cases alive
    · cases started
  started := fun _ _ started => nomatch started
  pending := fun _ _ stored => nomatch stored

/-- A step that reuses no key early keeps the keys apart. -/
theorem Owned.step (owned : before.Owned) {label : UdpLayerLabel Addr}
    (permitted : before.NoEarlyReuse label) (stepped : before.step? label = some after) :
    after.Owned := by
  cases label with
  | syn peerAddr connId magic room =>
    cases stepped
    split
    · rename_i isMagic
      exact owned.handleSyn room fun isRoom => permitted _ (if_pos ⟨isMagic, isRoom⟩)
    · exact owned
  | sackSent closer sent =>
    obtain ⟨-, ⟨⟩⟩ := Option.ite_none_right_eq_some.mp stepped
    exact owned.finishSack closer sent
  | connect remoteAddr connId magic =>
    obtain ⟨-, ⟨⟩⟩ := Option.ite_none_right_eq_some.mp stepped
    exact owned.startConnect remoteAddr connId magic
  | sack recvAddr connId magic =>
    cases stepped
    cases answered : before.answered? connId magic with
    | none => exact owned
    | some pending =>
      refine owned.handleSack answered (permitted _ ?_)
      rw [registers?, answered, Option.map_some]
  | connected session =>
    obtain ⟨attempt, started, made⟩ := Option.bind_eq_some_iff.mp stepped
    obtain ⟨key, isKey, rfl⟩ := Option.map_eq_some_iff.mp made
    have held : before.Holds session key := .attempt attempt started isKey
    exact owned.forget started _ (fun _ fresh => held.of_mem_newSession fresh) _ _
  | connectDropped session =>
    obtain ⟨attempt, started, rfl⟩ := Option.map_eq_some_iff.mp stepped
    exact owned.dropAttempt started
  | openClassified protocol remoteAddr =>
    obtain ⟨vacant, ⟨⟩⟩ := Option.ite_none_right_eq_some.mp stepped
    have unregistered := Option.isNone_iff_eq_none.mp vacant
    exact owned.openSession unregistered (permitted _ rfl unregistered)
  | datagram key accepts =>
    cases stepped
    exact owned.handleDatagram accepts fun accepted => permitted _ (if_pos accepted)
  | receiverDropped closer =>
    obtain ⟨-, ⟨⟩⟩ := Option.ite_none_right_eq_some.mp stepped
    exact owned.shrink (fun _ _ found => found) (fun _ alive => alive) rfl
      (fun _ _ stored => stored) rfl
  | sendError closer =>
    obtain ⟨-, ⟨⟩⟩ := Option.ite_none_right_eq_some.mp stepped
    exact (owned.dropClosers fun _ alive => List.mem_of_mem_erase alive).close closer
  | sessionDropped closer =>
    obtain ⟨-, ⟨⟩⟩ := Option.ite_none_right_eq_some.mp stepped
    exact owned.dropSession closer
  | shutDown =>
    cases stepped
    exact owned.shrink (fun _ _ found => nomatch found) (fun _ alive => alive) rfl
      (fun _ _ stored => nomatch stored) rfl
  | shutdownSeen closer =>
    obtain ⟨-, ⟨⟩⟩ := Option.ite_none_right_eq_some.mp stepped
    refine (owned.dropClosers fun other alive => ?_).close closer
    exact List.mem_of_mem_erase (List.mem_filter.mp alive).1

theorem owned_of_reachable
    (reached : (system : System _ (UdpLayerLabel Addr)).ReachableUnder NoEarlyReuse layer) :
    layer.Owned :=
  reached.invariant (motive := Owned) (fun _ starts => starts ▸ owned_start)
    fun _ _ _ owned permitted stepped => owned.step permitted stepped

end Keeping

/-! ## Closing one session -/

/-- Whatever closes a session, in a layer where no key was reused early, closes that session and no
other one. -/
theorem closing_leaves_other_sessions {before after : UdpSessionLayer Addr}
    {label : UdpLayerLabel Addr} {session : SessionId}
    (reached : (system : System _ (UdpLayerLabel Addr)).ReachableUnder NoEarlyReuse before)
    (stepped : (system : System _ (UdpLayerLabel Addr)).step before label after)
    (closes : before.closing? label = some session) : OnlyCloses session before after := by
  have owned := owned_of_reachable reached
  cases label with
  | sackSent closer sent =>
    obtain ⟨alive, ⟨⟩⟩ := Option.ite_none_right_eq_some.mp stepped
    cases sent with
    | true => cases closes
    | false =>
      cases closes
      exact owned.onlyCloses_finishSack (alive.elim (·.1) (·.1))
  | sack recvAddr connId magic =>
    -- While a connection id is pending, its call of `connect` is still there.
    obtain ⟨pending, answered, gone⟩ := Option.bind_eq_some_iff.mp closes
    obtain ⟨attempt, started, _⟩ := owned.pending connId pending (answered?_eq_some answered).1
    rw [started] at gone
    cases gone
  | connectDropped session =>
    cases closes
    obtain ⟨attempt, started, rfl⟩ := Option.map_eq_some_iff.mp stepped
    exact owned.onlyCloses_dropAttempt started
  | datagram key accepts =>
    cases stepped
    obtain ⟨stored, queueClosed⟩ := Option.filter_eq_some_iff.mp closes
    unfold handleDatagram
    rw [stored, Option.elim_some, if_pos (of_decide_eq_true queueClosed)]
    exact owned.onlyCloses (.registered stored)
  | sendError closer | sessionDropped closer =>
    cases closes
    obtain ⟨alive, ⟨⟩⟩ := Option.ite_none_right_eq_some.mp stepped
    exact (owned.onlyCloses_close alive.1).of_eq rfl rfl
  | shutdownSeen closer =>
    cases closes
    obtain ⟨alive, ⟨⟩⟩ := Option.ite_none_right_eq_some.mp stepped
    exact (owned.onlyCloses_close alive.1.1).of_eq rfl rfl
  | _ => cases closes

private def quicPeer : UdpSessionKey Nat := .classified .quic 7

/-- A peer's first session is dropped, then a second one is opened under its key. -/
private def reopened : UdpSessionLayer Nat :=
  ((start.openSession quicPeer).dropSession ⟨⟨0⟩, quicPeer, .object⟩).openSession quicPeer

/-- When a send error closes the second session, the first one has let go of the key. -/
theorem reopened_session_closes_alone :
    (system : System _ (UdpLayerLabel Nat)).ReachableUnder NoEarlyReuse reopened ∧
    ∃ after, (system : System _ (UdpLayerLabel Nat)).step reopened
        (.sendError ⟨⟨1⟩, quicPeer, .sendTask⟩) after ∧
      reopened.registry.lookup quicPeer = some ⟨1⟩ ∧ OnlyCloses ⟨1⟩ reopened after := by
  have opens : (start : UdpSessionLayer Nat).NoEarlyReuse (.openClassified .quic 7) :=
    fun _ _ _ => ⟨fun _ alive => (nomatch alive), fun _ _ started => (nomatch started)⟩
  have drops : (start.openSession quicPeer).NoEarlyReuse
      (.sessionDropped ⟨⟨0⟩, quicPeer, .object⟩) := fun _ isKey => nomatch isKey
  have reopens : ((start.openSession quicPeer).dropSession ⟨⟨0⟩, quicPeer, .object⟩).NoEarlyReuse
      (.openClassified .quic 7) :=
    fun _ _ _ => ⟨fun _ alive => (nomatch alive), fun _ _ started => (nomatch started)⟩
  have reached : (system : System _ (UdpLayerLabel Nat)).ReachableUnder NoEarlyReuse reopened :=
    .step (.step (.step (.start rfl) opens rfl) drops rfl) reopens rfl
  have fails : (system : System _ (UdpLayerLabel Nat)).step reopened
      (.sendError ⟨⟨1⟩, quicPeer, .sendTask⟩) _ := rfl
  exact ⟨reached, _, fails, by decide +kernel, closing_leaves_other_sessions reached fails rfl⟩

/-- The first session fails to send and is removed, a second one is opened under its key, and then
the first one's object is dropped. -/
theorem dropped_session_closes_its_successor :
    ∃ before after : UdpSessionLayer Nat, ∃ closer : Closer Nat, ∃ successor : SessionId,
      (system : System _ (UdpLayerLabel Nat)).Reachable before ∧
      (system : System _ (UdpLayerLabel Nat)).step before (.sessionDropped closer) after ∧
      before.registry.lookup closer.key = some successor ∧ successor ≠ closer.session ∧
      after.registry.lookup closer.key = none ∧
      successor ∉ before.closed ∧ successor ∈ after.closed := by
  obtain ⟨before, reached, alive, stored, unsignalled⟩ :
      ∃ before, (system : System _ (UdpLayerLabel Nat)).Reachable before ∧ _ :=
    System.exists_reachable start [.openClassified .quic 7,
      .sendError ⟨⟨0⟩, quicPeer, .sendTask⟩, .openClassified .quic 7] (fun layer =>
        layer.Alive ⟨⟨0⟩, quicPeer, .object⟩ .object ∧
          layer.registry.lookup quicPeer = some ⟨1⟩ ∧ ⟨1⟩ ∉ layer.closed) rfl (by decide +kernel)
      fun _ _ _ => id
  refine ⟨before, before.dropSession ⟨⟨0⟩, quicPeer, .object⟩, ⟨⟨0⟩, quicPeer, .object⟩, ⟨1⟩,
    reached, if_pos alive, stored, by decide, AList.lookup_erase _ _,
    unsignalled, ?_⟩
  refine List.mem_cons_of_mem _ (List.mem_append_left _ ?_)
  exact Option.mem_toList.mpr stored

end UdpSessionLayer

end EasyTier.Socket
