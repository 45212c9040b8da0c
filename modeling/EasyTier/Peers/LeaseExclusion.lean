import EasyTier.Peers.PublicIpv6
import EasyTier.Semantics.System

/-! # Interleaved lease operations

Between what an operation reads and what it writes, other operations may write and the selected
provider may change. The last write wins, so a lease granted in between is lost, and its address is
granted again. The host's own addresses change as well, and a renewal does not look at them.
Leases are exclusive and in the prefix as long as every operation reads a table of the provider it
serves, no request for a lease works on a table that lacks leases, and the host takes no leased
address.
-/

namespace EasyTier.Peers.PublicIpv6

open Data Semantics

/-- The operations that write the table. `clear` is what a change of the routes, the client's
synchronization and the first half of a collection do; `collect` is the second half. -/
inductive LeaseOperation where
  | acquire (request : LeaseRequest)
  | release (peerId : PeerId) (instId : InstId)
  | clear
  | collect

/-- An operation that has read and not yet written. -/
structure Suspended where
  operation : LeaseOperation
  view : LeaseView

/-- A lease as it was returned, and whether it was released since. -/
structure Grant where
  instId : InstId
  address : Ipv6Addr
  validUntil : Nat
  released : Bool

/-- Neither expired nor released. -/
def Grant.Live (now : Nat) (grant : Grant) : Prop := grant.released = false ∧ now < grant.validUntil

/-- The service of one peer with the routes, the addresses of the host and the time it sees, the
operations under way and every lease returned so far. -/
structure LeaseService where
  peers : List PublicIpv6PeerRouteInfo
  hostAddrs : List Ipv6Addr
  providerState : Option PublicIpv6ProviderState
  now : Nat
  suspended : List Suspended
  granted : List Grant

/-- A write comes with what the host has answered when the operation asked for its addresses. -/
inductive LeaseLabel where
  | routesChange (peers : List PublicIpv6PeerRouteInfo)
  | hostChanges (addresses : List Ipv6Addr)
  | passes (elapsed : Nat)
  | read (operation : LeaseOperation)
  | write (index : Nat) (answered : List Ipv6Addr)

namespace LeaseService

def start : LeaseService := ⟨[], [], none, 0, [], []⟩

def selectedProvider (service : LeaseService) : Option PublicIpv6Provider :=
  selectedProviderFromSnapshot service.peers

def view (service : LeaseService) : LeaseView :=
  ⟨service.selectedProvider, service.providerState, service.now⟩

section

variable (myPeerId : PeerId)

/-- A lease is returned: the table is written. -/
def grant (service : LeaseService) (request : LeaseRequest)
    (result : PublicIpv6ProviderLease × PublicIpv6ProviderState) : LeaseService :=
  { service with
    providerState := some result.2
    granted := ⟨request.instId, result.1.addr.address, result.1.validUntil, false⟩ ::
      service.granted }

/-- A lease is released: the table is written, and the address is given up. -/
def revoke (service : LeaseService) (instId : InstId)
    (result : PublicIpv6ProviderLease × PublicIpv6ProviderState) : LeaseService :=
  { service with
    providerState := some result.2
    granted := service.granted.map fun grant =>
      if grant.instId = instId ∧ grant.address = result.1.addr.address then
        { grant with released := true }
      else
        grant }

/-- What an operation writes. -/
def complete (service : LeaseService) (suspended : Suspended) (answered : List Ipv6Addr) :
    LeaseService :=
  match suspended.operation with
  | .acquire request =>
    ((acquireLease myPeerId answered suspended.view request service.now).toOption.map
      (service.grant request)).getD service
  | .release peerId instId =>
    ((releaseLease myPeerId suspended.view peerId instId).map (service.revoke instId)).getD service
  | .clear =>
    if shouldClear suspended.view then { service with providerState := none } else service
  | .collect =>
    ((collectLeases myPeerId suspended.view).map fun state =>
      { service with providerState := some state }).getD service

def step? (service : LeaseService) : LeaseLabel → Option LeaseService
  | .routesChange peers => some { service with peers := peers }
  | .hostChanges addresses => some { service with hostAddrs := addresses }
  | .passes elapsed => some { service with now := service.now + elapsed }
  | .read operation =>
    some { service with suspended := service.suspended ++ [⟨operation, service.view⟩] }
  | .write index answered => (service.suspended[index]?).map fun suspended =>
    complete myPeerId { service with suspended := service.suspended.eraseIdx index } suspended
      answered

/-- The service under any interleaving of its operations with changes of the routes and of the
host. -/
def system : System LeaseService LeaseLabel := System.ofStep (· = start) (step? myPeerId)

/-- The lease a step returns, and the request it answers. -/
def returned? (service : LeaseService) : LeaseLabel →
    Option (LeaseRequest × PublicIpv6ProviderLease)
  | .write index answered => (service.suspended[index]?).bind fun suspended =>
    match suspended.operation with
    | .acquire request =>
      (acquireLease myPeerId answered suspended.view request service.now).toOption.map fun result =>
        (request, result.1)
    | _ => none
  | _ => none

/-- What a returned lease should be like. -/
structure Proper (service : LeaseService) (request : LeaseRequest)
    (lease : PublicIpv6ProviderLease) : Prop where
  inside : ∃ provider, service.selectedProvider = some provider ∧
    provider.providerPrefix.contains lease.addr.address = true ∧
    lease.addr.address ∉ service.hostAddrs
  exclusive : ∀ grant ∈ service.granted, grant.instId ≠ request.instId → grant.Live service.now →
    grant.address ≠ lease.addr.address

/-- The table an operation reads is that of the selected provider, if this peer is the one, or holds
nothing but expired leases. -/
def ReadsOwnTable (service : LeaseService) : Prop :=
  ∀ provider state, service.selectedProvider = some provider → provider.peerId = myPeerId →
    service.providerState = some state →
    state.provider = provider ∨
      ∀ instId lease, state.leases.lookup instId = some lease → lease.validUntil ≤ service.now

/-- The request works for the provider that is still selected, on a table that holds every live
lease of another instance in the prefix. -/
def WorksOnWholeTable (service : LeaseService) (request : LeaseRequest) (view : LeaseView) : Prop :=
  view.provider = service.selectedProvider ∧
    ∀ provider, view.provider = some provider → ∀ grant ∈ service.granted,
      grant.instId ≠ request.instId → grant.Live service.now →
      provider.providerPrefix.contains grant.address = true →
      ∃ state lease, view.current = some state ∧ state.leases.lookup grant.instId = some lease ∧
        view.readAt < lease.validUntil ∧ lease.addr.address = grant.address

/-- A lease that is renewed is not an address of the host by now; for a new one the host has
answered all its addresses in the prefix. -/
def KnowsHost (service : LeaseService) (request : LeaseRequest) (view : LeaseView)
    (answered : List Ipv6Addr) : Prop :=
  ∀ provider, view.provider = some provider →
    (∀ existing, (view.pruned provider).leases.lookup request.instId = some existing →
      existing.addr.address ∉ service.hostAddrs) ∧
    ((view.pruned provider).leases.lookup request.instId = none →
      ∀ address ∈ service.hostAddrs, provider.providerPrefix.contains address = true →
        address ∈ answered)

/-- No step works on something that is out of date. -/
def Undisturbed (service : LeaseService) : LeaseLabel → Prop
  | .read operation => operation ≠ .clear → service.ReadsOwnTable myPeerId
  | .write index answered => ∀ suspended request, service.suspended[index]? = some suspended →
    suspended.operation = .acquire request → service.WorksOnWholeTable request suspended.view ∧
      service.KnowsHost request suspended.view answered
  | _ => True

/-- The table is sound, and so is what the operations under way have read for this peer. -/
structure Invariant (service : LeaseService) : Prop where
  table : ∀ state, service.providerState = some state → Sound state
  views : ∀ suspended ∈ service.suspended, suspended.operation ≠ .clear →
    ∀ provider, suspended.view.provider = some provider → provider.peerId = myPeerId →
    suspended.view.Sound provider

end

variable {myPeerId : PeerId} {service : LeaseService} {lease : PublicIpv6ProviderLease}

theorem Invariant.complete {suspended : Suspended} (invariant : service.Invariant myPeerId)
    (viewSound : suspended.operation ≠ .clear →
      ∀ provider, suspended.view.provider = some provider → provider.peerId = myPeerId →
      suspended.view.Sound provider) (answered : List Ipv6Addr) :
    (service.complete myPeerId suspended answered).Invariant myPeerId := by
  unfold LeaseService.complete
  split
  · rename_i request isAcquire
    cases outcome : acquireLease myPeerId answered suspended.view request service.now with
    | error _ => exact invariant
    | ok result =>
      obtain ⟨_, _, sound, _⟩ := acquireLease_ok (viewSound (by simp [isAcquire])) outcome
      refine ⟨fun state written => ?_, invariant.views⟩
      cases written
      exact sound
  · rename_i peerId instId isRelease
    cases outcome : releaseLease myPeerId suspended.view peerId instId with
    | none => exact invariant
    | some result =>
      have sound := releaseLease_sound (viewSound (by simp [isRelease])) outcome
      refine ⟨fun state written => ?_, invariant.views⟩
      cases written
      exact sound
  · split
    · exact ⟨fun state written => (nomatch written), invariant.views⟩
    · exact invariant
  · rename_i isCollect
    cases outcome : collectLeases myPeerId suspended.view with
    | none => exact invariant
    | some result =>
      have sound := collectLeases_sound (viewSound (by simp [isCollect])) outcome
      refine ⟨fun state written => ?_, invariant.views⟩
      cases written
      exact sound

theorem Invariant.step {before after : LeaseService} {label : LeaseLabel}
    (invariant : before.Invariant myPeerId)
    (undisturbed : before.Undisturbed myPeerId label)
    (transition : (system myPeerId).step before label after) :
    after.Invariant myPeerId := by
  cases label with
  | routesChange | hostChanges | passes =>
    cases transition
    exact ⟨invariant.table, invariant.views⟩
  | read operation =>
    cases transition
    refine ⟨invariant.table, fun suspended member notClear provider isProvider selected => ?_⟩
    rcases List.mem_append.mp member with earlier | added
    · exact invariant.views suspended earlier notClear provider isProvider selected
    · rw [List.mem_singleton] at added
      subst added
      intro state isState
      rcases undisturbed notClear provider state isProvider selected isState with own | expired
      · exact .inl ⟨own, invariant.table state isState⟩
      · exact .inr expired
  | write index answered =>
    obtain ⟨suspended, isSuspended, rfl⟩ := Option.map_eq_some_iff.mp transition
    have kept :
        ({ before with suspended := before.suspended.eraseIdx index } : LeaseService).Invariant
        myPeerId :=
      ⟨invariant.table, fun other member =>
        invariant.views other (List.mem_of_mem_eraseIdx member)⟩
    exact kept.complete (invariant.views suspended (List.mem_of_getElem? isSuspended)) answered

theorem invariant_of_reachable
    (reached : (system myPeerId).ReachableUnder (Undisturbed myPeerId) service) :
    service.Invariant myPeerId := by
  refine System.ReachableUnder.invariant (motive := Invariant myPeerId) ?_ ?_ reached
  · rintro _ rfl
    exact ⟨fun state found => (nomatch found), fun suspended member => (nomatch member)⟩
  · intro before label after invariant undisturbed transition
    exact invariant.step undisturbed transition

/-- A step that returns a lease completes a request for one. -/
theorem acquire_of_returned {label : LeaseLabel} {request : LeaseRequest}
    (returned : service.returned? myPeerId label = some (request, lease)) :
    ∃ index answered suspended written, label = .write index answered ∧
      service.suspended[index]? = some suspended ∧ suspended.operation = .acquire request ∧
      acquireLease myPeerId answered suspended.view request service.now = .ok (lease, written) := by
  cases label with
  | routesChange | hostChanges | passes | read => cases returned
  | write index answered =>
    obtain ⟨suspended, isSuspended, granted⟩ := Option.bind_eq_some_iff.mp returned
    split at granted
    · rename_i asked isAcquire
      cases outcome : acquireLease myPeerId answered suspended.view asked service.now with
      | error _ =>
        rw [outcome] at granted
        cases granted
      | ok result =>
        rw [outcome] at granted
        cases granted
        exact ⟨index, answered, suspended, result.2, rfl, isSuspended, isAcquire, outcome⟩
    · cases granted

/-- A lease granted from a sound and whole table of the selected provider is proper. -/
theorem Proper.of_acquire {request : LeaseRequest} {view : LeaseView} {answered : List Ipv6Addr}
    {written : PublicIpv6ProviderState} {writeAt : Nat}
    (viewSound : ∀ provider, view.provider = some provider → provider.peerId = myPeerId →
      view.Sound provider)
    (undisturbed : service.WorksOnWholeTable request view)
    (knows : service.KnowsHost request view answered)
    (granted : acquireLease myPeerId answered view request writeAt = .ok (lease, written)) :
    service.Proper request lease := by
  obtain ⟨provider, isProvider, sound, rfl, origin⟩ := acquireLease_ok viewSound granted
  obtain ⟨stillSelected, whole⟩ := undisturbed
  have held : ((view.pruned provider).leases.insert request.instId lease).lookup request.instId =
      some lease := AList.lookup_insert _
  have inside := sound.inside request.instId lease held
  refine ⟨⟨provider, stillSelected ▸ isProvider, inside, ?_⟩, ?_⟩
  · obtain ⟨renewed, unheld⟩ := knows provider isProvider
    rcases origin with ⟨existing, isExisting, same⟩ | ⟨absent, free⟩
    · exact same ▸ renewed existing isExisting
    · exact fun taken => free (unheld absent _ taken inside)
  · intro grant isGrant other live same
    obtain ⟨state, otherLease, isState, stored, unexpired, address⟩ :=
      whole provider isProvider grant isGrant other live (same ▸ inside)
    have otherHeld : ((view.pruned provider).leases.insert request.instId lease).lookup
        grant.instId = some otherLease := by
      rw [lookup_insert_eq, if_neg other, LeaseView.pruned, pruneExpiredLeases, lookup_retain_iff,
        isState]
      exact ⟨stored, decide_eq_true unexpired⟩
    exact other (sound.exclusive _ _ _ _ otherHeld held (address.trans same))

/-- In every interleaving in which no operation works on something that is out of date, every lease
that is returned lies in the prefix of the selected provider, is no address of the host, and is
different from every live lease of another instance. -/
theorem leases_exclusive_in_prefix (myPeerId : PeerId) {service : LeaseService} {label : LeaseLabel}
    (reached : (system myPeerId).ReachableUnder (Undisturbed myPeerId) service)
    (undisturbed : service.Undisturbed myPeerId label)
    {request : LeaseRequest} {lease : PublicIpv6ProviderLease}
    (returned : service.returned? myPeerId label = some (request, lease)) :
    service.Proper request lease := by
  obtain ⟨index, answered, suspended, written, rfl, isSuspended, isAcquire, granted⟩ :=
    acquire_of_returned returned
  have viewSound := (invariant_of_reachable reached).views suspended
    (List.mem_of_getElem? isSuspended) (by simp [isAcquire])
  obtain ⟨whole, knows⟩ := undisturbed suspended request isSuspended isAcquire
  exact .of_acquire viewSound whole knows granted

/-- An address behind `2001:db8::`. -/
private def behind (offset : Nat) : Ipv6Addr := .ofNat 128 (0x20010db8 * 2 ^ 96 + offset)

/-- Peer 1 provides four addresses from a place on. -/
private def providing (block : Nat) (aligned : 4 ∣ (behind block).toNat) :
    List PublicIpv6PeerRouteInfo :=
  [{ peerId := 1, instId := some 9, isProvider := true,
     providerPrefix := some ⟨behind block, 126, by decide, aligned⟩, reachable := true }]

/-- A request of the given instance. -/
private def requestOf (instId : InstId) : LeaseRequest := ⟨2, instId, false, none⟩

/-- The service when peer 1 is the selected provider and the host has an address of the prefix. -/
private def selected : LeaseService :=
  { start with peers := providing 0 (by decide), hostAddrs := [behind 2] }

/-- The service after a first lease. -/
private def leased : LeaseService :=
  selected.complete 1 ⟨.acquire (requestOf 1), selected.view⟩ [behind 2]

private theorem leased_reachable : (system 1).ReachableUnder (Undisturbed 1) leased := by
  have first : (system 1).ReachableUnder (Undisturbed 1) { start with peers := selected.peers } :=
    .step (.start rfl) (show Undisturbed 1 start (.routesChange selected.peers) from trivial) rfl
  have second : (system 1).ReachableUnder (Undisturbed 1) selected :=
    .step first (show Undisturbed 1 _ (.hostChanges [behind 2]) from trivial) rfl
  have third : (system 1).ReachableUnder (Undisturbed 1)
      { selected with suspended := [⟨.acquire (requestOf 1), selected.view⟩] } := by
    refine .step second (show Undisturbed 1 selected (.read (.acquire (requestOf 1))) from ?_) rfl
    intro _ provider state _ _ isState
    cases isState
  refine .step third (show Undisturbed 1 _ (.write 0 [behind 2]) from ?_) rfl
  intro suspended request isSuspended isAcquire
  cases isSuspended
  exact ⟨⟨rfl, fun provider _ grant isGrant => nomatch isGrant⟩,
    fun _ _ => ⟨fun existing found => (nomatch found), fun _ _ taken _ => taken⟩⟩

/-- Two requests one after the other: the second one reads the lease of the first. -/
theorem sequential_requests_exclusive :
    ∃ service lease, (system 1).ReachableUnder (Undisturbed 1) service ∧
      service.returned? 1 (.write 0 [behind 2]) = some (requestOf 4, lease) ∧
      service.granted.length = 1 ∧ service.Proper (requestOf 4) lease := by
  have own : leased.providerState.map (·.provider) = leased.selectedProvider := by decide +kernel
  have held : leased.granted.map (fun grant => (grant.instId, grant.address)) =
      [(1, behind 3)] := by decide +kernel
  have stored : (leased.providerState.bind fun state => state.leases.lookup 1).map (fun lease =>
      (lease.addr.address, decide (leased.now < lease.validUntil))) = some (behind 3, true) := by
    decide +kernel
  have absent : leased.selectedProvider.all (fun provider =>
      ((leased.view.pruned provider).leases.lookup 4).isNone) = true := by decide +kernel
  have waiting : (system 1).ReachableUnder (Undisturbed 1)
      { leased with suspended := [⟨.acquire (requestOf 4), leased.view⟩] } := by
    refine .step leased_reachable
      (show Undisturbed 1 leased (.read (.acquire (requestOf 4))) from ?_) rfl
    intro _ provider state isProvider _ isState
    rw [isState, isProvider, Option.map_some, Option.some.injEq] at own
    exact .inl own
  have whole : Undisturbed 1 { leased with suspended := [⟨.acquire (requestOf 4), leased.view⟩] }
      (.write 0 [behind 2]) := by
    intro suspended request isSuspended isAcquire
    cases isSuspended
    refine ⟨⟨rfl, fun provider _ grant isGrant _ _ _ => ?_⟩, fun provider isProvider => ?_⟩
    · have isHeld : (grant.instId, grant.address) ∈
          leased.granted.map (fun grant => (grant.instId, grant.address)) :=
        List.mem_map_of_mem isGrant
      rw [held, List.mem_singleton, Prod.mk.injEq] at isHeld
      obtain ⟨lease, found, seen⟩ := Option.map_eq_some_iff.mp stored
      obtain ⟨state, isState, isLease⟩ := Option.bind_eq_some_iff.mp found
      obtain ⟨address, unexpired⟩ := Prod.mk.inj seen
      refine ⟨state, lease, isState, ?_, of_decide_eq_true unexpired, address.trans isHeld.2.symm⟩
      rw [isHeld.1]
      exact isLease
    · cases isAcquire
      have isNew := Option.isNone_iff_eq_none.mp
        ((Option.all_eq_true _ _).mp absent provider isProvider)
      exact ⟨fun existing found => (nomatch isNew.symm.trans found), fun _ _ taken _ => taken⟩
  obtain ⟨result, granted⟩ := Option.isSome_iff_exists.mp
    (show (acquireLease 1 [behind 2] leased.view (requestOf 4) leased.now).toOption.isSome = true by
      decide +kernel)
  have returned : ({ leased with suspended := [⟨.acquire (requestOf 4), leased.view⟩] } :
      LeaseService).returned? 1 (.write 0 [behind 2]) = some (requestOf 4, result.1) := by
    change (acquireLease 1 [behind 2] leased.view (requestOf 4) leased.now).toOption.map
      (fun result => (requestOf 4, result.1)) = _
    rw [granted, Option.map_some]
  have count := congrArg List.length held
  exact ⟨_, result.1, waiting, returned, count,
    leases_exclusive_in_prefix 1 waiting whole returned⟩

/-- The ids of instances 1 and 4 lead to the same address, and both requests read before either
writes. -/
private def race : List LeaseLabel :=
  [.routesChange (providing 0 (by decide)), .read (.acquire (requestOf 1)),
    .read (.acquire (requestOf 4)), .write 0 []]

/-- Something changes between a lease and its renewal, and nothing has cleared the table yet. -/
private def renewal (change : LeaseLabel) : List LeaseLabel :=
  [.routesChange (providing 0 (by decide)), .read (.acquire (requestOf 1)), .write 0 [],
    change, .read (.acquire (requestOf 1))]

/-- The next write returns an address that another instance holds. -/
private def clashes (service : LeaseService) : Bool :=
  (service.returned? 1 (.write 0 [])).any fun answer => service.granted.any fun grant =>
    grant.instId != answer.1.instId && !grant.released && service.now < grant.validUntil &&
      grant.address == answer.2.addr.address

/-- The next write returns an address outside the selected provider's prefix. -/
private def strays (service : LeaseService) : Bool :=
  (service.returned? 1 (.write 0 [])).any fun answer => service.selectedProvider.any
    fun provider => !provider.providerPrefix.contains answer.2.addr.address

/-- The two requests of the race get the same address; a renewal gets an address outside the prefix
after the prefix has changed, and an address of the host after the host has taken it. -/
theorem lease_granted_twice_or_outside :
    (∃ service, (system 1).Reachable service ∧ ∃ request lease,
      service.returned? 1 (.write 0 []) = some (request, lease) ∧
      ∃ grant ∈ service.granted, grant.instId ≠ request.instId ∧ grant.Live service.now ∧
        grant.address = lease.addr.address) ∧
    (∃ service, (system 1).Reachable service ∧ ∃ request lease provider,
      service.returned? 1 (.write 0 []) = some (request, lease) ∧
      service.selectedProvider = some provider ∧
      provider.providerPrefix.contains lease.addr.address = false) ∧
    ∃ service, (system 1).Reachable service ∧ ∃ request lease,
      service.returned? 1 (.write 0 service.hostAddrs) = some (request, lease) ∧
      lease.addr.address ∈ service.hostAddrs := by
  refine ⟨?_, ?_, ?_⟩
  · refine System.exists_reachable start race (clashes · = true) rfl (by decide +kernel)
      fun service _ _ clash => ?_
    obtain ⟨found, answer, clash⟩ := (Option.any_eq_true _ _).mp clash
    obtain ⟨grant, isGrant, holds⟩ := List.any_eq_true.mp clash
    simp only [Bool.and_eq_true, bne_iff_ne, Bool.not_eq_true', decide_eq_true_eq, beq_iff_eq]
      at holds
    obtain ⟨⟨⟨other, kept⟩, unexpired⟩, same⟩ := holds
    exact ⟨found.1, found.2, answer, grant, isGrant, other, ⟨kept, unexpired⟩, same⟩
  · refine System.exists_reachable start (renewal (.routesChange (providing 4 (by decide))))
      (strays · = true) rfl (by decide +kernel) fun service _ _ stray => ?_
    obtain ⟨found, answer, stray⟩ := (Option.any_eq_true _ _).mp stray
    obtain ⟨provider, selected, outside⟩ := (Option.any_eq_true _ _).mp stray
    exact ⟨found.1, found.2, provider, answer, selected, by simpa using outside⟩
  · refine System.exists_reachable start (renewal (.hostChanges [behind 2]))
      (fun service => (service.returned? 1 (.write 0 service.hostAddrs)).any
        (·.2.addr.address ∈ service.hostAddrs)) rfl (by decide +kernel) fun service _ _ taken => ?_
    obtain ⟨found, answer, taken⟩ := (Option.any_eq_true _ _).mp taken
    exact ⟨found.1, found.2, answer, of_decide_eq_true taken⟩

end LeaseService

end EasyTier.Peers.PublicIpv6
