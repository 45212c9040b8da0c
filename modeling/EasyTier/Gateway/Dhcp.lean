import EasyTier.Gateway.TcpProxyEngine
import EasyTier.Semantics.System

/-! # Proposing a virtual address, and keeping it

The subnet is that of whichever used address the hash set yields first, and an address counts as
used only together with its prefix length. So an address that another peer uses with another prefix
length is proposed all the same, and an address that is kept is not compared with the ends of its
subnet.

The service has a second copy of the address, in the runtime configuration. The two differ after a
failed change, and after the interface was lost.
-/

namespace EasyTier.Gateway

open Semantics

namespace Ipv4Inet

variable (subnet : Ipv4Inet)

def lastAddress : Ipv4Addr := subnet.address ||| ~~~networkMask subnet.networkLength

def network : Ipv4Cidr where
  firstAddress := subnet.firstAddress
  networkLength := subnet.networkLength
  bounded := subnet.bounded
  aligned := by rw [firstAddress, BitVec.and_assoc, BitVec.and_self]

/-- An address other than the ends of the subnet. -/
def IsHost (address : Ipv4Addr) : Prop :=
  address ≠ subnet.firstAddress ∧ address ≠ subnet.lastAddress

instance (address : Ipv4Addr) : Decidable (subnet.IsHost address) :=
  inferInstanceAs (Decidable (_ ∧ _))

end Ipv4Inet

/-- `Ipv4Cidr::iter`: the addresses of a network from the first to the last. -/
def Ipv4Cidr.inets (cidr : Ipv4Cidr) : List Ipv4Inet :=
  (List.range (2 ^ (32 - cidr.networkLength))).map fun host =>
    ⟨cidr.firstAddress + BitVec.ofNat 32 host, cidr.networkLength, cidr.bounded⟩

/-- What a round makes of the address. -/
inductive DhcpIpv4Decision where
  | waitForPeers
  | unchanged
  | change (previous next : Option Ipv4Inet)
  deriving DecidableEq

/-- Where addresses are taken from, and the one in use. -/
structure DhcpIpv4Allocator where
  defaultSubnet : Ipv4Inet
  current : Option Ipv4Inet

open DhcpIpv4Allocator

variable (allocator : DhcpIpv4Allocator)

namespace DhcpIpv4Allocator

/-- The first host address of the subnet that is not used with the prefix length of the subnet. -/
def search (subnet : Ipv4Inet) (usedIpv4 : List Ipv4Inet) : Option Ipv4Inet :=
  subnet.network.inets.find? fun candidate =>
    subnet.IsHost candidate.address ∧ candidate ∉ usedIpv4

/-- The used addresses stand in the order in which the hash set yields them. -/
def subnet (usedIpv4 : List Ipv4Inet) : Ipv4Inet :=
  usedIpv4.head?.getD allocator.defaultSubnet

/-- The current address is kept. -/
def keeps (usedIpv4 : List Ipv4Inet) : Bool :=
  allocator.current.any fun current =>
    current.network = (allocator.subnet usedIpv4).network ∧ current ∉ usedIpv4

def evaluate (hasRoutes : Bool) (usedIpv4 : List Ipv4Inet) :
    DhcpIpv4Decision :=
  if !hasRoutes then .waitForPeers
  else if allocator.keeps usedIpv4 then .unchanged
  else
    let next := search (allocator.subnet usedIpv4) usedIpv4
    if allocator.current = next then .unchanged else .change allocator.current next

/-! ## What may be proposed -/

section Subnet

variable (subnet : Ipv4Inet) (usedIpv4 : List Ipv4Inet)

/-- An address for a host that nobody else uses, whatever the prefix lengths. -/
def Free (inet : Ipv4Inet) : Prop :=
  (∀ entry ∈ usedIpv4, entry.address ≠ inet.address) ∧ subnet.IsHost inet.address

def AllUsed : Prop :=
  ∀ address, subnet.network.contains address = true → subnet.IsHost address →
    ∃ entry ∈ usedIpv4, entry.address = address

/-- A host address is used, but not with the prefix length of the subnet, and every host address
before it is used with that. -/
def Shadowed : Prop :=
  ∃ earlier inet later, subnet.network.inets = earlier ++ inet :: later ∧
    (∀ other ∈ earlier, subnet.IsHost other.address → other ∈ usedIpv4) ∧
    subnet.IsHost inet.address ∧ inet ∉ usedIpv4 ∧ ∃ entry ∈ usedIpv4, entry.address = inet.address

end Subnet

/-- What is kept or proposed is free, and no address is proposed only if all are used. -/
def ProposesFree (hasRoutes : Bool) (usedIpv4 : List Ipv4Inet) :
    Prop :=
  match allocator.evaluate hasRoutes usedIpv4 with
  | .waitForPeers => True
  | .unchanged => ∀ current ∈ allocator.current, Free (allocator.subnet usedIpv4) usedIpv4 current
  | .change _ (some next) => Free (allocator.subnet usedIpv4) usedIpv4 next
  | .change _ none => AllUsed (allocator.subnet usedIpv4) usedIpv4

/-- A kept address is one for a host, and whoever uses it uses it with its prefix length; where none
is kept, no address is shadowed. -/
def Agrees (usedIpv4 : List Ipv4Inet) : Prop :=
  if allocator.keeps usedIpv4 then
    ∀ current ∈ allocator.current, (allocator.subnet usedIpv4).IsHost current.address ∧
      ∀ entry ∈ usedIpv4, entry.address = current.address →
        entry.networkLength = current.networkLength
  else ¬ Shadowed (allocator.subnet usedIpv4) usedIpv4

/-- The bits of an address above those for hosts, and those. -/
theorem toNat_and_networkMask (address : Ipv4Addr) (networkLength : Nat) :
    (address &&& networkMask networkLength).toNat + address.toNat % 2 ^ (32 - networkLength) =
      address.toNat := by
  have shifted : address &&& networkMask networkLength =
      (address >>> (32 - networkLength)) <<< (32 - networkLength) := by
    ext bit inside
    simp only [networkMask, BitVec.getElem_and, BitVec.getElem_shiftLeft, BitVec.getElem_allOnes]
    by_cases below : bit < 32 - networkLength
    · simp [below]
    · simp [below, show 32 - networkLength + (bit - (32 - networkLength)) = bit by omega,
        BitVec.getLsbD_eq_getElem inside]
  have small : address.toNat / 2 ^ (32 - networkLength) * 2 ^ (32 - networkLength) < 2 ^ 32 :=
    Nat.lt_of_le_of_lt (Nat.div_mul_le_self _ _) address.isLt
  rw [shifted, BitVec.toNat_shiftLeft, BitVec.toNat_ushiftRight, Nat.shiftLeft_eq,
    Nat.shiftRight_eq_div_pow, Nat.mod_eq_of_lt small, Nat.mul_comm]
  exact Nat.div_add_mod _ _

theorem mem_inets {cidr : Ipv4Cidr} {address : Ipv4Addr} (inside : cidr.contains address = true) :
    ⟨address, cidr.networkLength, cidr.bounded⟩ ∈ cidr.inets := by
  have host := toNat_and_networkMask address cidr.networkLength
  rw [eq_of_beq inside] at host
  refine List.mem_map.mpr ⟨address.toNat % 2 ^ (32 - cidr.networkLength),
    List.mem_range.mpr (Nat.mod_lt _ (Nat.two_pow_pos _)), ?_⟩
  congr 1
  rw [← BitVec.toNat_inj, BitVec.toNat_add, BitVec.toNat_ofNat, Nat.add_mod_mod, host]
  exact Nat.mod_eq_of_lt address.isLt

variable {subnet : Ipv4Inet} {usedIpv4 : List Ipv4Inet}

/-- The search finds the address that a shadowed one would be. -/
theorem free_of_search_iff {next : Ipv4Inet} (found : search subnet usedIpv4 = some next) :
    Free subnet usedIpv4 next ↔ ¬ Shadowed subnet usedIpv4 := by
  obtain ⟨fits, earlier, later, split, skipped⟩ := List.find?_eq_some_iff_append.mp found
  obtain ⟨isHost, unused⟩ := of_decide_eq_true fits
  constructor
  · rintro ⟨free, -⟩ ⟨front, inet, back, again, before, host, absent, entry, isUsed, same⟩
    have first : search subnet usedIpv4 = some inet := by
      refine List.find?_eq_some_iff_append.mpr ⟨decide_eq_true ⟨host, absent⟩, front, back, again,
        fun other inFront => ?_⟩
      simpa [imp_iff_not_or] using before other inFront
    obtain rfl : inet = next := Option.some.inj (first.symm.trans found)
    exact free entry isUsed same
  · intro unshadowed
    refine ⟨fun entry isUsed same =>
      unshadowed ⟨earlier, next, later, split, ?_, isHost, unused, entry, isUsed, same⟩, isHost⟩
    intro other inFront host
    simpa [host] using skipped other inFront

theorem search_eq_none (failed : search subnet usedIpv4 = none) :
    AllUsed subnet usedIpv4 ∧ ¬ Shadowed subnet usedIpv4 := by
  have rejected : ∀ inet ∈ subnet.network.inets, subnet.IsHost inet.address → inet ∈ usedIpv4 := by
    simpa [search] using failed
  constructor
  · intro address inside host
    exact ⟨_, rejected _ (mem_inets inside) host, rfl⟩
  · rintro ⟨front, inet, back, split, -, host, absent, -⟩
    exact absent (rejected inet (by rw [split]; simp) host)

/-- An address that is not used with its prefix length is free if it is not used with another. -/
theorem free_iff {inet : Ipv4Inet} (unused : inet ∉ usedIpv4) :
    Free subnet usedIpv4 inet ↔ subnet.IsHost inet.address ∧ ∀ entry ∈ usedIpv4,
      entry.address = inet.address → entry.networkLength = inet.networkLength := by
  constructor
  · rintro ⟨free, isHost⟩
    exact ⟨isHost, fun entry isUsed same => absurd same (free entry isUsed)⟩
  · rintro ⟨isHost, alike⟩
    refine ⟨fun entry isUsed same => ?_, isHost⟩
    have sameLength := alike entry isUsed same
    cases entry
    cases same
    cases sameLength
    exact unused isUsed

/-- Free addresses are kept and proposed, and none only if there is none, exactly for the inputs on
which the prefix lengths do not matter and no end of a subnet is kept. -/
theorem proposes_free_iff (allocator : DhcpIpv4Allocator) (hasRoutes : Bool)
    (usedIpv4 : List Ipv4Inet) :
    allocator.ProposesFree hasRoutes usedIpv4 ↔
      (hasRoutes = true → allocator.Agrees usedIpv4) := by
  unfold ProposesFree Agrees evaluate
  cases hasRoutes with
  | false => simp
  | true =>
    by_cases keeps : allocator.keeps usedIpv4 = true
    · simp only [keeps, Bool.not_true, Bool.false_eq_true, if_false, if_true, forall_const]
      obtain ⟨current, isCurrent, same⟩ := (Option.any_eq_true _ _).mp keeps
      rw [isCurrent]
      simpa using free_iff (of_decide_eq_true same).2
    · simp only [if_neg keeps, Bool.not_true, Bool.false_eq_true, if_false, forall_const]
      cases found : search (allocator.subnet usedIpv4) usedIpv4 with
      | none =>
        obtain ⟨allUsed, unshadowed⟩ := search_eq_none found
        cases current : allocator.current with
        | none => simp [unshadowed]
        | some current => simp [allUsed, unshadowed]
      | some next =>
        rw [← free_of_search_iff found]
        by_cases same : allocator.current = some next
        · simp [same]
        · simp [same]

/-- `10.1.2.1` is proposed while it is used with another prefix length, and `10.1.2.0` is kept. -/
theorem used_or_network_address_proposed :
    (∃ next, evaluate ⟨⟨0x0a7e7e00#32, 24, by decide⟩, none⟩ true
        [⟨0x0a010209#32, 24, by decide⟩, ⟨0x0a010201#32, 16, by decide⟩] =
          .change none (some next) ∧
      next.address = 0x0a010201#32) ∧
    evaluate ⟨⟨0x0a7e7e00#32, 24, by decide⟩, some ⟨0x0a010200#32, 24, by decide⟩⟩ true
      [⟨0x0a010209#32, 24, by decide⟩] = .unchanged :=
  ⟨⟨⟨0x0a010201#32, 24, by decide⟩, by decide +kernel, rfl⟩, by decide +kernel⟩

end DhcpIpv4Allocator

/-! ## The service around the allocator -/

/-- The allocator, and the address in the runtime configuration. -/
structure DhcpIpv4Service where
  allocator : DhcpIpv4Allocator
  ipv4 : Option Ipv4Inet

/-- What a call of `reconcile_once` meets: the signal that the interface was closed, the route
snapshot, and what the host answers if it is asked to apply a change. -/
structure Reconciliation where
  interfaceClosed : Bool
  hasRoutes : Bool
  usedIpv4 : List Ipv4Inet
  actual : Option Ipv4Inet
  applied : Bool

namespace DhcpIpv4Service

variable (service : DhcpIpv4Service) (call : Reconciliation)

/-- The allocator once the signal was taken. -/
def resetIfClosed : DhcpIpv4Allocator :=
  if call.interfaceClosed then { service.allocator with current := none } else service.allocator

def decision : DhcpIpv4Decision :=
  (service.resetIfClosed call).evaluate call.hasRoutes call.usedIpv4

/-- `reconcile_once`: the configuration follows every answer of the host, the allocator only a
success. -/
def reconcileOnce : DhcpIpv4Service :=
  let allocator := service.resetIfClosed call
  match service.decision call with
  | .change _ _ =>
    { allocator := if call.applied then { allocator with current := call.actual } else allocator
      ipv4 := call.actual }
  | _ => { service with allocator := allocator }

/-- An allocator without an address finds one if there is one in the configuration; and if the
change of an address fails, that address is still the actual one. -/
def Settles : Prop :=
  ((service.resetIfClosed call).current = none → call.hasRoutes = true → service.ipv4 ≠ none →
    search ((service.resetIfClosed call).subnet call.usedIpv4) call.usedIpv4 ≠ none) ∧
  ((service.resetIfClosed call).current ≠ none → service.decision call matches .change _ _ →
    call.applied = false → call.actual = (service.resetIfClosed call).current)

instance : Decidable (service.Settles call) := inferInstanceAs (Decidable (_ ∧ _))

/-- The configuration has the address of the allocator, if that has one. -/
def Agrees (allocator : DhcpIpv4Allocator) (ipv4 : Option Ipv4Inet) : Prop :=
  allocator.current = none ∨ ipv4 = allocator.current

variable {service call}

theorem agrees_resetIfClosed (agrees : Agrees service.allocator service.ipv4) :
    Agrees (service.resetIfClosed call) service.ipv4 := by
  unfold resetIfClosed
  split
  · exact .inl rfl
  · exact agrees

theorem agrees_reconcileOnce (agrees : Agrees service.allocator service.ipv4)
    (settles : service.Settles call) :
    Agrees (service.reconcileOnce call).allocator (service.reconcileOnce call).ipv4 := by
  unfold reconcileOnce
  split
  · rename_i decided
    cases applied : call.applied with
    | true => exact .inr rfl
    | false =>
      by_cases empty : (service.resetIfClosed call).current = none
      · exact .inl empty
      · exact .inr (settles.2 empty (by rw [decided]) applied)
  · exact agrees_resetIfClosed agrees

/-- Without an address, nothing is left to do only if there is none to be had. -/
theorem search_of_unchanged (unchanged : service.decision call = .unchanged)
    (empty : (service.resetIfClosed call).current = none) :
    call.hasRoutes = true ∧
      search ((service.resetIfClosed call).subnet call.usedIpv4) call.usedIpv4 =
        none := by
  cases routes : call.hasRoutes with
  | false => simp [decision, evaluate, routes] at unchanged
  | true =>
    simp only [decision, evaluate, keeps, routes, empty] at unchanged
    split at unchanged
    · contradiction
    · refine ⟨rfl, ?_⟩
      by_contra found
      simp [Ne.symm found] at unchanged

end DhcpIpv4Service

/-- A new service, whatever the configuration says. -/
def dhcpSystem (defaultSubnet : Ipv4Inet) : System DhcpIpv4Service Reconciliation :=
  .ofStep (·.allocator = ⟨defaultSubnet, none⟩) fun service call =>
    some (service.reconcileOnce call)

/-- If every call settles, an address that is considered settled is the one in the configuration. -/
theorem settled_address_configured {defaultSubnet : Ipv4Inet} {service : DhcpIpv4Service}
    (reached : (dhcpSystem defaultSubnet).ReachableUnder DhcpIpv4Service.Settles service)
    {call : Reconciliation} (settles : service.Settles call)
    (unchanged : service.decision call = .unchanged) :
    (service.reconcileOnce call).ipv4 = (service.reconcileOnce call).allocator.current := by
  have agrees : DhcpIpv4Service.Agrees service.allocator service.ipv4 := by
    refine System.ReachableUnder.invariant
      (motive := fun service => DhcpIpv4Service.Agrees service.allocator service.ipv4) ?_ ?_ reached
    · rintro start starts
      exact .inl (by rw [starts])
    · rintro before call _ agrees settles ⟨⟩
      exact DhcpIpv4Service.agrees_reconcileOnce agrees settles
  have still : service.ipv4 = (service.resetIfClosed call).current := by
    have reset : DhcpIpv4Service.Agrees (service.resetIfClosed call) service.ipv4 :=
      DhcpIpv4Service.agrees_resetIfClosed agrees
    rcases reset with empty | same
    · obtain ⟨routes, none_free⟩ := DhcpIpv4Service.search_of_unchanged unchanged empty
      rw [empty]
      by_contra configured
      exact settles.1 empty routes configured none_free
    · exact same
  rw [DhcpIpv4Service.reconcileOnce, unchanged]
  exact still

/-- A call in which the host reports the address it was asked for. -/
def sampleReconciliation (usedIpv4 : List Ipv4Inet) (actual : Option Ipv4Inet) : Reconciliation :=
  ⟨false, true, usedIpv4, actual, actual.isSome⟩

def sampleAddress : Ipv4Inet := ⟨0x0a010201#32, 24, Nat.le_add_left 24 8⟩

def sampleService : DhcpIpv4Service := ⟨⟨⟨0x0a010200#32, 24, Nat.le_add_left 24 8⟩, none⟩, none⟩

theorem sample_address_configured :
    ∃ service, (dhcpSystem sampleService.allocator.defaultSubnet).ReachableUnder
        DhcpIpv4Service.Settles service ∧ service.ipv4 = some sampleAddress ∧
      (service.reconcileOnce (sampleReconciliation [] none)).ipv4 =
        (service.reconcileOnce (sampleReconciliation [] none)).allocator.current :=
  System.exists_reachableUnder sampleService [sampleReconciliation [] (some sampleAddress)]
    (fun service => service.ipv4 = some sampleAddress ∧
      service.Settles (sampleReconciliation [] none) ∧
      service.decision (sampleReconciliation [] none) = .unchanged)
    rfl (by decide +kernel) fun _ reached seen =>
      ⟨seen.1, settled_address_configured reached seen.2.1 seen.2.2⟩

/-- The address is taken by another peer, and changing it fails and leaves the host without one;
then it is free again. -/
theorem failed_change_considered_settled :
    ∃ service, (dhcpSystem sampleService.allocator.defaultSubnet).Reachable service ∧
      service.decision (sampleReconciliation [] none) = .unchanged ∧
      (service.reconcileOnce (sampleReconciliation [] none)).ipv4 = none ∧
      (service.reconcileOnce (sampleReconciliation [] none)).allocator.current =
        some sampleAddress := by
  refine System.exists_reachable sampleService
    [sampleReconciliation [] (some sampleAddress), sampleReconciliation [sampleAddress] none]
    (fun service => service.decision (sampleReconciliation [] none) = .unchanged ∧
      (service.reconcileOnce (sampleReconciliation [] none)).ipv4 = none ∧
      (service.reconcileOnce (sampleReconciliation [] none)).allocator.current = some sampleAddress)
    rfl (by decide +kernel) fun _ _ _ seen => seen

end EasyTier.Gateway
