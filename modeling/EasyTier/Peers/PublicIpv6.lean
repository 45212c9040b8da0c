import EasyTier.Data.AssocMap
import Mathlib.Data.List.MinMax

/-! # Leases of public IPv6 addresses

A node that has a public prefix leases addresses of it to the other instances of the network. Every
operation reads the selected provider and the table of leases, computes the next table and writes it
back; the functions here are given what was read and return what is written.
-/

namespace EasyTier.Peers.PublicIpv6

open Data

abbrev PeerId := Nat

/-- A UUID, which orders as a number. -/
abbrev InstId := BitVec 128

abbrev Ipv6Addr := BitVec 128

/-- A network, by its first address. -/
structure Ipv6Cidr where
  firstAddress : Ipv6Addr
  networkLength : Nat
  bounded : networkLength ≤ 128
  aligned : 2 ^ (128 - networkLength) ∣ firstAddress.toNat
  deriving DecidableEq

def Ipv6Cidr.hostBits (cidr : Ipv6Cidr) : Nat := 128 - cidr.networkLength

def Ipv6Cidr.contains (cidr : Ipv6Cidr) (address : Ipv6Addr) : Bool :=
  address.toNat / 2 ^ cidr.hostBits == cidr.firstAddress.toNat / 2 ^ cidr.hostBits

/-- An address with its network length. -/
structure Ipv6Inet where
  address : Ipv6Addr
  networkLength : Nat
  deriving DecidableEq

structure PublicIpv6Provider where
  peerId : PeerId
  instId : InstId
  providerPrefix : Ipv6Cidr
  deriving DecidableEq

structure PublicIpv6ProviderLease where
  peerId : PeerId
  instId : InstId
  addr : Ipv6Inet
  validUntil : Nat
  reused : Bool
  deriving DecidableEq

structure PublicIpv6ProviderState where
  provider : PublicIpv6Provider
  leases : AList fun _ : InstId => PublicIpv6ProviderLease

/-- What routing knows of a peer. -/
structure PublicIpv6PeerRouteInfo where
  peerId : PeerId
  instId : Option InstId
  isProvider : Bool
  providerPrefix : Option Ipv6Cidr
  reachable : Bool

/-- `PUBLIC_IPV6_LEASE_TTL`, 120 seconds in nanoseconds. -/
def leaseTtl : Nat := 120 * 10 ^ 9

def selectedProviderFromSnapshot (peers : List PublicIpv6PeerRouteInfo) :
    Option PublicIpv6Provider :=
  let providers := (peers.filter fun info => info.isProvider && info.reachable).filterMap
    fun info =>
    info.instId.bind fun instId => info.providerPrefix.map fun providerPrefix =>
      { peerId := info.peerId, instId := instId, providerPrefix := providerPrefix }
  providers.argmin fun provider => provider.instId.toNat

/-! ## Choosing an address -/

/-- How the search for the address of one instance ends. -/
inductive Slot where
  | taken (addr : Ipv6Inet) (offset : Nat)
  | skipped
  | exhausted

/-- The address an instance had, or else the first free one from a place its id gives. The
network's own address is used only if there is no other, and nothing can be allocated in `::/0`. -/
def chooseSlot (cidr : Ipv6Cidr) (usedOffsets : List Nat) (old : Option Ipv6Inet)
    (instId : InstId) :
    Slot :=
  let network := cidr.firstAddress.toNat
  let reusable := old.filter fun existing =>
    cidr.contains existing.address && existing.address.toNat - network ∉ usedOffsets
  match reusable with
  | some existing => .taken existing (existing.address.toNat - network)
  | none =>
    if cidr.hostBits = 128 then
      .skipped
    else
      let usableSlots := 2 ^ cidr.hostBits - 1
      let offset :=
        if usableSlots = 0 then
          if 0 ∈ usedOffsets then none else some 0
        else
          ((List.range usableSlots).map fun step =>
            (instId.toNat % usableSlots + step) % usableSlots + 1).find? (· ∉ usedOffsets)
      match offset with
      | none => .exhausted
      | some offset => .taken ⟨BitVec.ofNat 128 (network + offset), 128⟩ offset

/-- Allocate for one instance after the other. -/
def allocateFrom (cidr : Ipv6Cidr) (oldMap : InstId → Option Ipv6Inet) :
    List InstId → List Nat → List PublicIpv6ProviderLease
  | [], _ => []
  | instId :: rest, usedOffsets =>
    match chooseSlot cidr usedOffsets (oldMap instId) instId with
    | .taken addr offset =>
      { peerId := 0, instId := instId, addr := addr, validUntil := 0,
        reused := oldMap instId = some addr } ::
        allocateFrom cidr oldMap rest (offset :: usedOffsets)
    | .skipped => allocateFrom cidr oldMap rest usedOffsets
    | .exhausted => []

def allocatePublicIpv6Leases (cidr : Ipv6Cidr) (autoPeerIds : List InstId)
    (reserved : List Ipv6Addr)
    (oldMap : InstId → Option Ipv6Inet) : List PublicIpv6ProviderLease :=
  allocateFrom cidr oldMap autoPeerIds
    ((reserved.filter cidr.contains).map fun address => address.toNat - cidr.firstAddress.toNat)

/-- An offset within the host bits stays in the network. -/
theorem Ipv6Cidr.contains_offset (cidr : Ipv6Cidr) {offset : Nat}
    (small : offset < 2 ^ cidr.hostBits) :
    (BitVec.ofNat 128 (cidr.firstAddress.toNat + offset)).toNat = cidr.firstAddress.toNat + offset ∧
      cidr.contains (BitVec.ofNat 128 (cidr.firstAddress.toNat + offset)) = true := by
  obtain ⟨index, isIndex⟩ := cidr.aligned
  change cidr.firstAddress.toNat = 2 ^ cidr.hostBits * index at isIndex
  have hostBits : cidr.hostBits ≤ 128 := Nat.sub_le 128 _
  obtain ⟨count, isCount⟩ := Nat.pow_dvd_pow 2 hostBits
  have below : index < count := by
    have bounded := cidr.firstAddress.isLt
    rw [isIndex, isCount] at bounded
    exact Nat.lt_of_mul_lt_mul_left bounded
  have fits : cidr.firstAddress.toNat + offset < 2 ^ 128 := by
    calc cidr.firstAddress.toNat + offset
        < 2 ^ cidr.hostBits * index + 2 ^ cidr.hostBits := by omega
      _ ≤ 2 ^ cidr.hostBits * count := Nat.mul_le_mul_left _ below
      _ = 2 ^ 128 := isCount.symm
  have value : (BitVec.ofNat 128 (cidr.firstAddress.toNat + offset)).toNat =
      cidr.firstAddress.toNat + offset := by
    rw [BitVec.toNat_ofNat, Nat.mod_eq_of_lt fits]
  refine ⟨value, ?_⟩
  have positive : 0 < 2 ^ cidr.hostBits := Nat.two_pow_pos _
  rw [contains, value, isIndex, Nat.mul_add_div positive, Nat.div_eq_of_lt small, Nat.add_zero,
    Nat.mul_div_cancel_left _ positive, beq_self_eq_true]

/-- The offset of an address of the network is within the host bits. -/
theorem Ipv6Cidr.offset_of_contains {cidr : Ipv6Cidr} {address : Ipv6Addr}
    (inside : cidr.contains address = true) :
    cidr.firstAddress.toNat ≤ address.toNat ∧
      address.toNat - cidr.firstAddress.toNat < 2 ^ cidr.hostBits := by
  rw [contains, beq_iff_eq] at inside
  have start : 2 ^ cidr.hostBits * (cidr.firstAddress.toNat / 2 ^ cidr.hostBits) =
    cidr.firstAddress.toNat := Nat.mul_div_cancel' cidr.aligned
  have split := Nat.div_add_mod address.toNat (2 ^ cidr.hostBits)
  have small := Nat.mod_lt address.toNat (Nat.two_pow_pos cidr.hostBits)
  rw [inside, start] at split
  omega

variable {instId : InstId} {lease : PublicIpv6ProviderLease}

section

variable {cidr : Ipv6Cidr} {usedOffsets : List Nat} {oldMap : InstId → Option Ipv6Inet}

theorem hostBits_eq_zero : 2 ^ cidr.hostBits - 1 = 0 ↔ cidr.hostBits = 0 := by
  rw [Nat.sub_eq_zero_iff_le, ← Nat.pow_zero 2, Nat.pow_le_pow_iff_right (by decide), Nat.le_zero]

/-- A slot that is taken lies in the network, at an offset that was free. One that was not the
instance's before is not at the network's own address, unless there is no other. -/
theorem chooseSlot_taken {old : Option Ipv6Inet} {addr : Ipv6Inet} {offset : Nat}
    (taken : chooseSlot cidr usedOffsets old instId = .taken addr offset) :
    cidr.contains addr.address = true ∧ addr.address.toNat - cidr.firstAddress.toNat = offset ∧
      offset ∉ usedOffsets ∧ (old ≠ some addr → offset = 0 → cidr.hostBits = 0) := by
  unfold chooseSlot at taken
  dsimp only at taken
  split at taken
  · rename_i existing reusable
    cases taken
    obtain ⟨isOld, free⟩ := Option.filter_eq_some_iff.mp reusable
    rw [Bool.and_eq_true, decide_eq_true_eq] at free
    exact ⟨free.1, rfl, free.2, fun isNew => absurd isOld isNew⟩
  · split at taken
    · cases taken
    split at taken
    · cases taken
    rename_i isFound
    cases taken
    have searched : offset < 2 ^ cidr.hostBits ∧ offset ∉ usedOffsets ∧
        (offset = 0 → cidr.hostBits = 0) := by
      have positive : 0 < 2 ^ cidr.hostBits := Nat.two_pow_pos _
      split at isFound
      · split at isFound
        · cases isFound
        rename_i single free
        cases isFound
        exact ⟨positive, free, fun _ => hostBits_eq_zero.mp single⟩
      · rename_i several
        have free := List.find?_some isFound
        obtain ⟨step, _, isStep⟩ := List.mem_map.mp (List.mem_of_find?_eq_some isFound)
        have within := Nat.mod_lt (instId.toNat % (2 ^ cidr.hostBits - 1) + step)
          (Nat.pos_of_ne_zero several)
        exact ⟨by omega, by simpa using free, by omega⟩
    obtain ⟨value, inside⟩ := cidr.contains_offset searched.1
    refine ⟨inside, ?_, searched.2.1, fun _ => searched.2.2⟩
    rw [value, Nat.add_sub_cancel_left]

theorem chooseSlot_of_old {old : Ipv6Inet}
    (instId : InstId) (inside : cidr.contains old.address = true)
    (free : old.address.toNat - cidr.firstAddress.toNat ∉ usedOffsets) :
    chooseSlot cidr usedOffsets (some old) instId =
      .taken old (old.address.toNat - cidr.firstAddress.toNat) := by
  simp [chooseSlot, Option.filter_some, inside, free]

/-- The search goes round all offsets but the network's own. -/
theorem chooseSlot_of_free (old : Option Ipv6Inet)
    (instId : InstId) (proper : cidr.hostBits ≠ 128) {offset : Nat}
    (small : offset < 2 ^ cidr.hostBits) (admissible : offset = 0 → cidr.hostBits = 0)
    (free : offset ∉ usedOffsets) :
    ∃ addr found, chooseSlot cidr usedOffsets old instId = .taken addr found := by
  unfold chooseSlot
  dsimp only
  split
  · exact ⟨_, _, rfl⟩
  rw [if_neg proper]
  split
  · rename_i exhausted
    split at exhausted
    · rename_i single
      obtain rfl : offset = 0 := by omega
      rw [if_neg free] at exhausted
      cases exhausted
    · rename_i several
      have positive : offset ≠ 0 := fun zero => several (hostBits_eq_zero.mpr (admissible zero))
      have start := Nat.mod_lt instId.toNat (Nat.pos_of_ne_zero several)
      have below : offset - 1 < 2 ^ cidr.hostBits - 1 := by omega
      generalize 2 ^ cidr.hostBits - 1 = slots at *
      have visited := List.find?_eq_none.mp exhausted offset (List.mem_map.mpr
        ⟨(offset - 1 + slots - instId.toNat % slots) % slots,
          List.mem_range.mpr (Nat.mod_lt _ (Nat.pos_of_ne_zero several)), ?_⟩)
      · exact absurd free (by simpa using visited)
      rw [Nat.add_mod_mod, Nat.add_sub_cancel' (by omega), Nat.add_mod_right,
        Nat.mod_eq_of_lt (by omega)]
      omega
  · exact ⟨_, _, rfl⟩

theorem mem_allocateFrom {ids : List InstId}
    (member : lease ∈ allocateFrom cidr oldMap ids usedOffsets) :
    cidr.contains lease.addr.address = true ∧
      lease.addr.address.toNat - cidr.firstAddress.toNat ∉ usedOffsets ∧
      (oldMap lease.instId ≠ some lease.addr →
        lease.addr.address.toNat - cidr.firstAddress.toNat = 0 → cidr.hostBits = 0) := by
  induction ids generalizing usedOffsets with
  | nil => cases member
  | cons instId rest ih =>
    unfold allocateFrom at member
    split at member
    · rename_i addr offset taken
      rcases List.mem_cons.mp member with rfl | later
      · obtain ⟨inside, isOffset, free⟩ := chooseSlot_taken taken
        exact ⟨inside, isOffset ▸ free⟩
      · obtain ⟨inside, free, isNew⟩ := ih later
        exact ⟨inside, fun used => free (List.mem_cons_of_mem _ used), isNew⟩
    · exact ih member
    · cases member

/-- No two addresses of the network have one offset. -/
theorem mem_reservedOffsets (reserved : List Ipv6Addr) {address : Ipv6Addr}
    (inside : cidr.contains address = true) :
    address.toNat - cidr.firstAddress.toNat ∈ (reserved.filter cidr.contains).map (fun address =>
      address.toNat - cidr.firstAddress.toNat) ↔ address ∈ reserved := by
  refine ⟨fun used => ?_, fun isReserved =>
    List.mem_map_of_mem (List.mem_filter.mpr ⟨isReserved, inside⟩)⟩
  obtain ⟨other, member, same⟩ := List.mem_map.mp used
  obtain ⟨isReserved, otherInside⟩ := List.mem_filter.mp member
  have lower := (cidr.offset_of_contains inside).1
  have otherLower := (cidr.offset_of_contains otherInside).1
  obtain rfl : other = address := BitVec.eq_of_toNat_eq (by omega)
  exact isReserved

/-- Allocated addresses lie in the network and are not reserved. -/
theorem mem_allocatePublicIpv6Leases {ids : List InstId} {reserved : List Ipv6Addr}
    (member : lease ∈ allocatePublicIpv6Leases cidr ids reserved oldMap) :
    cidr.contains lease.addr.address = true ∧ lease.addr.address ∉ reserved := by
  obtain ⟨inside, free, _⟩ := mem_allocateFrom member
  exact ⟨inside, mt (mem_reservedOffsets reserved inside).mpr free⟩

end

/-- What was allocated for an instance is used when the next one is served. -/
theorem nodup_allocateFrom (cidr : Ipv6Cidr) (oldMap : InstId → Option Ipv6Inet) (ids : List InstId)
    (usedOffsets : List Nat) :
    ((allocateFrom cidr oldMap ids usedOffsets).map (·.addr.address)).Nodup := by
  induction ids generalizing usedOffsets with
  | nil => exact .nil
  | cons instId rest ih =>
    unfold allocateFrom
    split
    · rename_i addr offset taken
      refine List.nodup_cons.mpr ⟨fun again => ?_, ih _⟩
      obtain ⟨lease, later, same⟩ := List.mem_map.mp again
      have free := (mem_allocateFrom later).2.1
      rw [same, (chooseSlot_taken taken).2.1] at free
      exact free List.mem_cons_self
    · exact ih _
    · exact .nil

/-- An address may be chosen for an instance. -/
def Ipv6Cidr.Admits (cidr : Ipv6Cidr) (reserved : List Ipv6Addr) (address : Ipv6Addr) : Prop :=
  cidr.contains address = true ∧ address ∉ reserved ∧
    (address = cidr.firstAddress → cidr.networkLength = 128)

/-- Allocated addresses are distinct, free and inside the prefix, the prefix's own address is chosen
for nobody who did not have it, and an instance gets an address whenever there is one for it. -/
theorem allocation_sound_and_complete (cidr : Ipv6Cidr) (proper : 1 ≤ cidr.networkLength)
    (ids : List InstId) (reserved : List Ipv6Addr) (oldMap : InstId → Option Ipv6Inet) :
    ((allocatePublicIpv6Leases cidr ids reserved oldMap).map (·.addr.address)).Nodup ∧
    (∀ lease ∈ allocatePublicIpv6Leases cidr ids reserved oldMap,
      cidr.contains lease.addr.address = true ∧ lease.addr.address ∉ reserved ∧
      (oldMap lease.instId ≠ some lease.addr → cidr.Admits reserved lease.addr.address)) ∧
    ∀ instId, (∃ lease, allocatePublicIpv6Leases cidr [instId] reserved oldMap = [lease]) ↔
      (∃ old, oldMap instId = some old ∧ cidr.contains old.address = true ∧
        old.address ∉ reserved) ∨ ∃ address, cidr.Admits reserved address := by
  have bounded := cidr.bounded
  have sound : ∀ ids, ∀ lease ∈ allocatePublicIpv6Leases cidr ids reserved oldMap,
      oldMap lease.instId ≠ some lease.addr → cidr.Admits reserved lease.addr.address := by
    intro ids lease member isNew
    obtain ⟨inside, free⟩ := mem_allocatePublicIpv6Leases member
    refine ⟨inside, free, fun isFirst => ?_⟩
    have single := (mem_allocateFrom member).2.2 isNew (by rw [isFirst, Nat.sub_self])
    unfold Ipv6Cidr.hostBits at single
    omega
  refine ⟨nodup_allocateFrom cidr oldMap ids _, fun lease member => ?_, fun instId => ⟨?_, ?_⟩⟩
  · obtain ⟨inside, free⟩ := mem_allocatePublicIpv6Leases member
    exact ⟨inside, free, sound ids lease member⟩
  · rintro ⟨lease, allocated⟩
    have member : lease ∈ allocatePublicIpv6Leases cidr [instId] reserved oldMap := by
      simp [allocated]
    obtain rfl : lease.instId = instId := by
      unfold allocatePublicIpv6Leases allocateFrom at allocated
      split at allocated
      · rw [← (List.cons.inj allocated).1]
      · cases allocated
      · cases allocated
    obtain ⟨inside, free⟩ := mem_allocatePublicIpv6Leases member
    by_cases isOld : oldMap lease.instId = some lease.addr
    · exact .inl ⟨lease.addr, isOld, inside, free⟩
    · exact .inr ⟨lease.addr.address, sound _ lease member isOld⟩
  · intro available
    have served : ∃ addr offset, chooseSlot cidr ((reserved.filter cidr.contains).map fun address =>
        address.toNat - cidr.firstAddress.toNat) (oldMap instId) instId = .taken addr offset := by
      rcases available with ⟨old, isOld, inside, free⟩ | ⟨address, inside, free, admissible⟩
      · rw [isOld]
        exact ⟨_, _, chooseSlot_of_old instId inside
          (mt (mem_reservedOffsets reserved inside).mp free)⟩
      · obtain ⟨lower, small⟩ := cidr.offset_of_contains inside
        refine chooseSlot_of_free _ _ ?_ small (fun zero => ?_)
          (mt (mem_reservedOffsets reserved inside).mp free)
        · unfold Ipv6Cidr.hostBits
          omega
        · rw [Ipv6Cidr.hostBits, admissible (BitVec.eq_of_toNat_eq (by omega))]
    obtain ⟨addr, offset, taken⟩ := served
    rw [allocatePublicIpv6Leases, allocateFrom, taken]
    exact ⟨_, rfl⟩

/-- The prefix `::8/125`, of eight addresses. -/
def blockPrefix : Ipv6Cidr where
  firstAddress := 8
  networkLength := 125
  bounded := by decide
  aligned := by decide

/-- Instance 13 had the address `::c`. -/
def formerAddress (instId : InstId) : Option Ipv6Inet :=
  if instId = 13 then some ⟨12, 128⟩ else none

/-- Instance 13 keeps its address; the others start at that place, pass over what is taken or
reserved and wrap around. Where one address is left a further instance gets it. -/
theorem block_serves_in_turn :
    (allocatePublicIpv6Leases blockPrefix [13, 3, 10, 17] [13] formerAddress).map (·.addr.address) =
      [12, 14, 15, 9] ∧
    ((allocatePublicIpv6Leases blockPrefix [13, 3, 10, 17] [13] formerAddress).map
      (·.addr.address)).Nodup ∧
    ∃ lease, allocatePublicIpv6Leases blockPrefix [20] [10, 11, 12, 13, 14, 15] formerAddress =
      [lease] := by
  have admits : blockPrefix.Admits [10, 11, 12, 13, 14, 15] 9 :=
    ⟨by decide +kernel, by decide, nofun⟩
  refine ⟨by decide +kernel, ?_, ?_⟩
  · exact (allocation_sound_and_complete blockPrefix (by decide) _ _ _).1
  · exact ((allocation_sound_and_complete blockPrefix (by decide) [] _ formerAddress).2.2 20).mpr
      (.inr ⟨9, admits⟩)

/-! ## Operations -/

/-- What an operation read before it computes: the selected provider, the table and the time. -/
structure LeaseView where
  provider : Option PublicIpv6Provider
  current : Option PublicIpv6ProviderState
  readAt : Nat

def pruneExpiredLeases (provider : PublicIpv6Provider) (current : Option PublicIpv6ProviderState)
    (now : Nat) : PublicIpv6ProviderState where
  provider := provider
  leases := retain (fun _ lease => now < lease.validUntil) ((current.map (·.leases)).getD ∅)

structure LeaseRequest where
  peerId : PeerId
  instId : InstId
  renewOnly : Bool
  requestedAddr : Option Ipv6Inet

inductive LeaseError where
  | noProvider
  | notSelected
  | addressMismatch
  | leaseNotFound
  | noFreeAddress (cidr : Ipv6Cidr)

def LeaseError.message (display : Ipv6Cidr → String) : LeaseError → String
  | .noProvider => "no active ipv6 public address provider"
  | .notSelected => "this peer is not the selected ipv6 public address provider"
  | .addressMismatch => "requested lease does not match the active allocation"
  | .leaseNotFound => "lease not found"
  | .noFreeAddress cidr => "no free ipv6 address left in provider prefix " ++ display cidr

/-- A lease for an instance that has none in the table that was read. -/
def newLease (reserved : List Ipv6Addr) (state : PublicIpv6ProviderState) (request : LeaseRequest)
    (writeAt : Nat) : Except LeaseError (PublicIpv6ProviderLease × PublicIpv6ProviderState) :=
  let held := state.leases.entries.map fun entry => entry.2.addr.address
  let oldMap := fun instId => (state.leases.lookup instId).map (·.addr)
  let allocated := allocatePublicIpv6Leases state.provider.providerPrefix [request.instId]
    (held ++ reserved) oldMap
  match allocated.getLast? with
  | none => .error (.noFreeAddress state.provider.providerPrefix)
  | some found =>
    let lease := { found with peerId := request.peerId, validUntil := writeAt + leaseTtl }
    .ok (lease, { state with leases := state.leases.insert request.instId lease })

/-- `acquire_lease`: the lease that is returned and the table that is written. What the host has
answered to `collect_reserved_addrs` matters to a new lease only. -/
def acquireLease (myPeerId : PeerId) (reserved : List Ipv6Addr) (view : LeaseView)
    (request : LeaseRequest) (writeAt : Nat) :
    Except LeaseError (PublicIpv6ProviderLease × PublicIpv6ProviderState) :=
  match view.provider with
  | none => .error .noProvider
  | some provider =>
    if provider.peerId ≠ myPeerId then
      .error .notSelected
    else
      let state := pruneExpiredLeases provider view.current view.readAt
      match state.leases.lookup request.instId with
      | some existing =>
        if request.requestedAddr.isSome ∧ request.requestedAddr ≠ some existing.addr then
          .error .addressMismatch
        else
          let lease := { existing with
            peerId := request.peerId, validUntil := writeAt + leaseTtl, reused := true }
          .ok (lease, { state with leases := state.leases.insert request.instId lease })
      | none =>
        if request.renewOnly then
          .error .leaseNotFound
        else
          newLease reserved state request writeAt

/-- `release_lease`: the lease that is removed and the table that is written, unless nothing is. -/
def releaseLease (myPeerId : PeerId) (view : LeaseView) (requesterPeerId : PeerId)
    (requesterInstId : InstId) : Option (PublicIpv6ProviderLease × PublicIpv6ProviderState) := do
  let provider ← view.provider
  guard (provider.peerId = myPeerId)
  let state := pruneExpiredLeases provider view.current view.readAt
  let lease ← state.leases.lookup requesterInstId
  guard (lease.peerId = requesterPeerId)
  return (lease, { state with leases := state.leases.erase requesterInstId })

/-- `clear_provider_state_if_provider_changed`: whether the table is cleared. -/
def shouldClear (view : LeaseView) : Bool :=
  view.current.any fun state => view.provider ≠ some state.provider

/-- The second half of `gc_provider_leases`, after the table was cleared if the provider changed. -/
def collectLeases (myPeerId : PeerId) (view : LeaseView) : Option PublicIpv6ProviderState := do
  let provider ← view.provider
  guard (provider.peerId = myPeerId)
  return pruneExpiredLeases provider view.current view.readAt

/-! ## What the operations keep -/

/-- Every lease of a table lies in the provider's prefix and has its address to itself. -/
structure Sound (state : PublicIpv6ProviderState) : Prop where
  inside : ∀ instId lease, state.leases.lookup instId = some lease →
    state.provider.providerPrefix.contains lease.addr.address = true
  exclusive : ∀ first second firstLease secondLease, state.leases.lookup first = some firstLease →
    state.leases.lookup second = some secondLease →
    firstLease.addr.address = secondLease.addr.address → first = second

/-- What was read is a sound table of the provider that was read, or one whose leases have all
expired. -/
def LeaseView.Sound (view : LeaseView) (provider : PublicIpv6Provider) : Prop :=
  ∀ state, view.current = some state →
    (state.provider = provider ∧ PublicIpv6.Sound state) ∨
      ∀ instId lease, state.leases.lookup instId = some lease → lease.validUntil ≤ view.readAt

/-- What an operation has pruned before it computes. -/
def LeaseView.pruned (view : LeaseView) (provider : PublicIpv6Provider) : PublicIpv6ProviderState :=
  pruneExpiredLeases provider view.current view.readAt

variable {myPeerId : PeerId} {reserved : List Ipv6Addr} {provider : PublicIpv6Provider}
  {view : LeaseView} {state written : PublicIpv6ProviderState}

/-- Fewer leases of the same provider. -/
theorem Sound.of_sub {fewer : PublicIpv6ProviderState} (sound : Sound state)
    (same : fewer.provider = state.provider)
    (sub : ∀ instId lease, fewer.leases.lookup instId = some lease →
      state.leases.lookup instId = some lease) : Sound fewer where
  inside := fun instId lease found => same ▸ sound.inside instId lease (sub instId lease found)
  exclusive := fun first second firstLease secondLease isFirst isSecond =>
    sound.exclusive first second firstLease secondLease (sub _ _ isFirst) (sub _ _ isSecond)

theorem Sound.insert (sound : Sound state)
    (inside : state.provider.providerPrefix.contains lease.addr.address = true)
    (apart : ∀ other otherLease, other ≠ instId → state.leases.lookup other = some otherLease →
      otherLease.addr.address ≠ lease.addr.address) :
    Sound { state with leases := state.leases.insert instId lease } := by
  have stored : ∀ other otherLease, (state.leases.insert instId lease).lookup other =
      some otherLease → other = instId ∧ otherLease = lease ∨
        other ≠ instId ∧ state.leases.lookup other = some otherLease := by
    intro other otherLease found
    rw [lookup_insert_eq] at found
    split at found
    · rename_i same
      exact .inl ⟨same, (Option.some.inj found).symm⟩
    · rename_i different
      exact .inr ⟨different, found⟩
  refine ⟨?_, ?_⟩
  · intro other otherLease found
    rcases stored other otherLease found with ⟨_, rfl⟩ | ⟨_, before⟩
    · exact inside
    · exact sound.inside other otherLease before
  · intro first second firstLease secondLease isFirst isSecond same
    rcases stored first firstLease isFirst with ⟨rfl, rfl⟩ | ⟨firstApart, firstBefore⟩
    · rcases stored second secondLease isSecond with ⟨rfl, rfl⟩ | ⟨secondApart, secondBefore⟩
      · rfl
      · exact absurd same.symm (apart second secondLease secondApart secondBefore)
    · rcases stored second secondLease isSecond with ⟨rfl, rfl⟩ | ⟨_, secondBefore⟩
      · exact absurd same (apart first firstLease firstApart firstBefore)
      exact sound.exclusive first second firstLease secondLease firstBefore secondBefore same

/-- A table without leases. -/
theorem Sound.of_empty (nothing : ∀ instId lease, state.leases.lookup instId ≠ some lease) :
    Sound state where
  inside := fun instId lease found => absurd found (nothing instId lease)
  exclusive := fun first _ firstLease _ found => absurd found (nothing first firstLease)

theorem Sound.prune (viewSound : view.Sound provider) : Sound (view.pruned provider) := by
  unfold LeaseView.pruned
  cases read : view.current with
  | none =>
    refine .of_empty fun instId lease found => ?_
    cases (lookup_retain_iff.mp found).1
  | some state =>
    rcases viewSound state read with ⟨same, sound⟩ | expired
    · exact sound.of_sub same.symm fun instId lease found => (lookup_retain_iff.mp found).1
    · refine .of_empty fun instId lease found => ?_
      obtain ⟨stored, unexpired⟩ := lookup_retain_iff.mp found
      exact absurd (of_decide_eq_true unexpired) (Nat.not_lt.mpr (expired instId lease stored))

/-- A new lease has an address of its own. -/
theorem newLease_ok {request : LeaseRequest} {writeAt : Nat}
    (granted : newLease reserved state request writeAt = .ok (lease, written)) :
    written = { state with leases := state.leases.insert request.instId lease } ∧
      state.provider.providerPrefix.contains lease.addr.address = true ∧
      lease.addr.address ∉ reserved ∧
      ∀ other otherLease, state.leases.lookup other = some otherLease →
        otherLease.addr.address ≠ lease.addr.address := by
  unfold newLease at granted
  dsimp only at granted
  split at granted
  · cases granted
  rename_i found isFound
  cases granted
  obtain ⟨inside, free⟩ := mem_allocatePublicIpv6Leases (List.mem_of_getLast? isFound)
  rw [List.mem_append, not_or] at free
  refine ⟨rfl, inside, free.2, fun other otherLease stored same => free.1 ?_⟩
  exact List.mem_map.mpr ⟨⟨other, otherLease⟩, AList.mem_lookup_iff.mp stored, same⟩

section

variable (viewSound : ∀ provider, view.provider = some provider → provider.peerId = myPeerId →
  view.Sound provider)
include viewSound

/-- A lease is granted from a sound table: the table that is written is sound as well, and holds
what was read and the lease, which is renewed, or new and not among the addresses the host has
answered. -/
theorem acquireLease_ok {request : LeaseRequest} {writeAt : Nat}
    (granted : acquireLease myPeerId reserved view request writeAt = .ok (lease, written)) :
    ∃ provider, view.provider = some provider ∧ Sound written ∧
      written = { provider := provider
                  leases := (view.pruned provider).leases.insert request.instId lease } ∧
      ((∃ existing, (view.pruned provider).leases.lookup request.instId = some existing ∧
          lease.addr = existing.addr) ∨
        (view.pruned provider).leases.lookup request.instId = none ∧
          lease.addr.address ∉ reserved) := by
  unfold acquireLease at granted
  split at granted
  · cases granted
  rename_i provider isProvider
  split at granted
  · cases granted
  rename_i selected
  have sound := Sound.prune (viewSound provider isProvider (not_not.mp selected))
  refine ⟨provider, isProvider, ?_⟩
  dsimp only at granted
  split at granted
  · rename_i existing isExisting
    split at granted
    · cases granted
    cases granted
    have inside := sound.inside _ _ isExisting
    refine ⟨sound.insert inside ?_, rfl, .inl ⟨existing, isExisting, rfl⟩⟩
    intro other otherLease different stored same
    exact different (sound.exclusive _ _ _ _ stored isExisting same)
  · rename_i absent
    split at granted
    · cases granted
    obtain ⟨rfl, inside, unreserved, apart⟩ := newLease_ok granted
    exact ⟨sound.insert inside fun other otherLease _ => apart other otherLease, rfl,
      .inr ⟨absent, unreserved⟩⟩

theorem releaseLease_sound {peerId : PeerId}
    (released : releaseLease myPeerId view peerId instId = some (lease, written)) :
    Sound written := by
  simp only [releaseLease, Option.bind_eq_bind, Option.bind_eq_some_iff, Option.guard_eq_some',
    Option.pure_def, Option.some.injEq, Prod.mk.injEq] at released
  obtain ⟨provider, isProvider, _, selected, _, _, _, _, _, rfl⟩ := released
  refine (Sound.prune (viewSound provider isProvider selected)).of_sub rfl
    fun other otherLease found => ?_
  exact (lookup_erase_iff.mp found).2

theorem collectLeases_sound
    (collected : collectLeases myPeerId view = some written) : Sound written := by
  simp only [collectLeases, Option.bind_eq_bind, Option.bind_eq_some_iff, Option.guard_eq_some',
    Option.pure_def, Option.some.injEq] at collected
  obtain ⟨provider, isProvider, _, selected, rfl⟩ := collected
  exact .prune (viewSound provider isProvider selected)

end

end EasyTier.Peers.PublicIpv6
