import EasyTier.Gateway.TcpProxyEngine

/-! # Mapped proxy networks

An address of a mapped network is translated by its host bits. Editing the configuration asks for
two networks of one length, loading it does not: a mapped network that is larger than the real one
has more host bits than there is room for.
-/

namespace EasyTier.Gateway

structure ProxyNetworkConfig where
  cidr : Ipv4Cidr
  mappedCidr : Option Ipv4Cidr
  deriving DecidableEq

/-- `add_proxy_cidr`; the error names the two lengths. -/
def addProxyCidr (networks : List ProxyNetworkConfig) (cidr : Ipv4Cidr)
    (mappedCidr : Option Ipv4Cidr) : Except (Nat × Nat) (List ProxyNetworkConfig) :=
  match mappedCidr.filter (cidr.networkLength ≠ ·.networkLength) with
  | some mapped => .error (cidr.networkLength, mapped.networkLength)
  | none =>
    if ⟨cidr, mappedCidr⟩ ∈ networks then .ok networks else .ok (networks ++ [⟨cidr, mappedCidr⟩])

/-- Edits of a loaded configuration; one that is refused changes nothing. -/
def editProxyCidrs (loaded : List ProxyNetworkConfig) (edits : List (Ipv4Cidr × Option Ipv4Cidr)) :
    List ProxyNetworkConfig :=
  edits.foldl (fun networks edit => (addProxyCidr networks edit.1 edit.2).toOption.getD networks)
    loaded

/-- The table of a configuration: `proxy_cidr_rule` and `update_snapshot`. -/
def proxyCidrTable (networks : List ProxyNetworkConfig) : List ProxyCidrEntry :=
  networks.map fun network => ⟨network.cidr, network.mappedCidr.getD network.cidr⟩

/-- Addresses of the mapped network go to different addresses of the real one. -/
structure ProxyCidrEntry.OneToOne (entry : ProxyCidrEntry) : Prop where
  inside : ∀ ip real, entry.lookupV4 ip = some real → entry.realCidr.contains real = true
  injective : ∀ ip other real, entry.lookupV4 ip = some real → entry.lookupV4 other = some real →
    ip = other

/-! ## Bits of networks -/

theorem getLsbD_networkMask (networkLength index : Nat) :
    (networkMask networkLength).getLsbD index =
      decide (32 - networkLength ≤ index ∧ index < 32) := by
  rw [networkMask, BitVec.getLsbD_shiftLeft, BitVec.getLsbD_allOnes]
  grind

namespace Ipv4Cidr

variable (cidr : Ipv4Cidr)

/-- The first address has no host bits. -/
theorem getLsbD_firstAddress {index : Nat} (low : index < 32 - cidr.networkLength) :
    cidr.firstAddress.getLsbD index = false := by
  rw [← cidr.aligned, BitVec.getLsbD_and, getLsbD_networkMask]
  simp [Nat.not_le.mpr low]

theorem contains_iff {ip : Ipv4Addr} :
    cidr.contains ip = true ↔ ∀ index < 32, 32 - cidr.networkLength ≤ index →
      ip.getLsbD index = cidr.firstAddress.getLsbD index := by
  rw [contains, beq_iff_eq]
  constructor
  · intro same index bounded high
    rw [← same, BitVec.getLsbD_and, getLsbD_networkMask, decide_eq_true ⟨high, bounded⟩,
      Bool.and_true]
  · intro same
    refine BitVec.eq_of_getLsbD_eq fun index bounded => ?_
    rw [BitVec.getLsbD_and, getLsbD_networkMask]
    by_cases high : 32 - cidr.networkLength ≤ index
    · rw [decide_eq_true ⟨high, bounded⟩, Bool.and_true, same index bounded high]
    · rw [cidr.getLsbD_firstAddress (Nat.lt_of_not_le high),
        decide_eq_false fun both => high both.1, Bool.and_false]

end Ipv4Cidr

namespace ProxyCidrEntry

variable {entry : ProxyCidrEntry}

/-- Below the mapped network every bit comes from the address, above it from the real network. -/
theorem exists_lookupV4 {ip : Ipv4Addr} (inside : entry.mappedCidr.contains ip = true) :
    ∃ real, entry.lookupV4 ip = some real ∧ ∀ index < 32, real.getLsbD index =
      (decide (index < 32 - entry.mappedCidr.networkLength) && ip.getLsbD index ||
        entry.realCidr.firstAddress.getLsbD index) := by
  by_cases same : entry.mappedCidr = entry.realCidr
  · refine ⟨ip, by simp [lookupV4, same, same ▸ inside], fun index bounded => ?_⟩
    have bits := entry.mappedCidr.contains_iff.mp inside index bounded
    have host := @entry.mappedCidr.getLsbD_firstAddress index
    grind
  · refine ⟨_, by rw [lookupV4, inside, if_neg (by simp), if_neg same], fun index bounded => ?_⟩
    simp only [BitVec.getLsbD_or, BitVec.getLsbD_and, BitVec.getLsbD_not, getLsbD_networkMask]
    grind

theorem contains_of_lookupV4 {ip real : Ipv4Addr} (found : entry.lookupV4 ip = some real) :
    entry.mappedCidr.contains ip = true := by
  by_contra outside
  simp [lookupV4, outside] at found

theorem getLsbD_of_lookupV4 {ip real : Ipv4Addr} (found : entry.lookupV4 ip = some real) :
    ∀ index < 32, real.getLsbD index =
      (decide (index < 32 - entry.mappedCidr.networkLength) && ip.getLsbD index ||
        entry.realCidr.firstAddress.getLsbD index) := by
  obtain ⟨image, again, bits⟩ := exists_lookupV4 (contains_of_lookupV4 found)
  rwa [Option.some.inj (found.symm.trans again)]

/-- A network of equal size or smaller has room in the real one. -/
theorem oneToOne_of_le (smaller : entry.realCidr.networkLength ≤ entry.mappedCidr.networkLength) :
    entry.OneToOne := by
  constructor
  · intro ip real found
    rw [Ipv4Cidr.contains_iff]
    intro index bounded high
    rw [getLsbD_of_lookupV4 found index bounded, decide_eq_false (by omega)]
    simp
  · intro ip other real found again
    refine BitVec.eq_of_getLsbD_eq fun index bounded => ?_
    by_cases low : index < 32 - entry.mappedCidr.networkLength
    · have both := (getLsbD_of_lookupV4 found index bounded).symm.trans
        (getLsbD_of_lookupV4 again index bounded)
      rw [entry.realCidr.getLsbD_firstAddress (by omega), decide_eq_true low] at both
      simpa only [Bool.true_and, Bool.or_false] using both
    · have inside := contains_of_lookupV4 found
      have otherInside := contains_of_lookupV4 again
      rw [Ipv4Cidr.contains_iff] at inside otherInside
      rw [inside index bounded (by omega), otherInside index bounded (by omega)]

/-- In a larger network the first address with the highest host bit set leaves the real network, or
shares its real address with the first address. -/
theorem not_oneToOne_of_lt
    (larger : entry.mappedCidr.networkLength < entry.realCidr.networkLength) :
    ¬ entry.OneToOne := by
  intro oneToOne
  have bounded := entry.realCidr.bounded
  have host := @entry.mappedCidr.getLsbD_firstAddress
  obtain ⟨top, bits⟩ : ∃ top : Ipv4Addr, ∀ index < 32, top.getLsbD index =
      (entry.mappedCidr.firstAddress.getLsbD index ||
        decide (31 - entry.mappedCidr.networkLength = index)) :=
    ⟨entry.mappedCidr.firstAddress ||| BitVec.twoPow 32 (31 - entry.mappedCidr.networkLength),
      fun index small => by
      rw [BitVec.getLsbD_or, BitVec.getLsbD_twoPow, decide_eq_true (by omega), Bool.true_and]⟩
  have topInside : entry.mappedCidr.contains top = true := by
    rw [Ipv4Cidr.contains_iff]
    intro index small high
    rw [bits index small, decide_eq_false (by omega), Bool.or_false]
  have firstInside : entry.mappedCidr.contains entry.mappedCidr.firstAddress = true := by
    rw [Ipv4Cidr.contains_iff]
    exact fun _ _ _ => rfl
  obtain ⟨topReal, topFound, topBits⟩ := exists_lookupV4 topInside
  obtain ⟨firstReal, firstFound, firstBits⟩ := exists_lookupV4 firstInside
  -- The highest host bit lies in the network part of the real network, so its first address has it
  -- too.
  have shared := entry.realCidr.contains_iff.mp (oneToOne.inside _ _ topFound)
    (31 - entry.mappedCidr.networkLength) (by omega) (by omega)
  have collide : topReal = firstReal := BitVec.eq_of_getLsbD_eq fun index small => by
    grind
  have same := oneToOne.injective _ _ _ topFound (collide ▸ firstFound)
  grind

theorem oneToOne_iff :
    entry.OneToOne ↔ entry.realCidr.networkLength ≤ entry.mappedCidr.networkLength :=
  ⟨fun oneToOne => by_contra fun larger => not_oneToOne_of_lt (by omega) oneToOne, oneToOne_of_le⟩

end ProxyCidrEntry

/-! ## Configurations -/

/-- The mapped network, if there is one, is no larger than the real one. -/
def ProxyNetworkConfig.MapsNoLarger (network : ProxyNetworkConfig) : Prop :=
  ∀ mapped, network.mappedCidr = some mapped → network.cidr.networkLength ≤ mapped.networkLength

theorem addProxyCidr_eq_ok {networks edited : List ProxyNetworkConfig} {cidr : Ipv4Cidr}
    {mappedCidr : Option Ipv4Cidr} (accepted : addProxyCidr networks cidr mappedCidr = .ok edited) :
    (edited = networks ∨ edited = networks ++ [⟨cidr, mappedCidr⟩]) ∧
      ProxyNetworkConfig.MapsNoLarger ⟨cidr, mappedCidr⟩ := by
  unfold addProxyCidr at accepted
  split at accepted
  · cases accepted
  next same =>
  rw [Option.filter_eq_none_iff] at same
  refine ⟨by grind, fun mapped isMapped => ?_⟩
  have equal : cidr.networkLength = mapped.networkLength :=
    of_not_not fun differ => same mapped isMapped (decide_eq_true differ)
  exact equal.le

theorem mapsNoLarger_editProxyCidrs {loaded : List ProxyNetworkConfig}
    (edits : List (Ipv4Cidr × Option Ipv4Cidr)) :
    (∀ network ∈ editProxyCidrs loaded edits, network.MapsNoLarger) ↔
      ∀ network ∈ loaded, network.MapsNoLarger := by
  induction edits generalizing loaded with
  | nil => rfl
  | cons edit edits ih =>
    rw [editProxyCidrs, List.foldl_cons, ← editProxyCidrs, ih]
    cases accepted : addProxyCidr loaded edit.1 edit.2 with
    | error => rfl
    | ok edited =>
      obtain ⟨rfl | rfl, fits⟩ := addProxyCidr_eq_ok accepted
      · rfl
      · simp only [Except.toOption, Option.getD_some, List.forall_mem_append,
          List.forall_mem_singleton]
        exact and_iff_left fits

/-- Every entry of the table translates one-to-one exactly if the loaded file maps to no larger
network. -/
theorem proxy_networks_oneToOne_iff (loaded : List ProxyNetworkConfig)
    (edits : List (Ipv4Cidr × Option Ipv4Cidr)) :
    (∀ entry ∈ proxyCidrTable (editProxyCidrs loaded edits), entry.OneToOne) ↔
      ∀ network ∈ loaded, network.MapsNoLarger := by
  rw [← mapsNoLarger_editProxyCidrs edits]
  simp only [proxyCidrTable, List.forall_mem_map, ProxyCidrEntry.oneToOne_iff]
  refine forall₂_congr fun network _ => ?_
  cases mapped : network.mappedCidr <;> simp [ProxyNetworkConfig.MapsNoLarger, mapped]

private def realOffice : Ipv4Cidr := ⟨0x0A010200#32, 24, Nat.le_add_right 24 8, by decide⟩

private def mappedOffice : Ipv4Cidr := ⟨0x0A090000#32, 16, by decide, by decide⟩

/-- Loaded, `10.1.2.0/24` mapped to `10.9.0.0/16` sends `10.9.1.5` out of the network and onto the
address of another one; as an edit it is refused. -/
theorem larger_mapped_network_loaded :
    addProxyCidr [] realOffice (some mappedOffice) = .error (24, 16) ∧
      ∃ entry ∈ proxyCidrTable [⟨realOffice, some mappedOffice⟩],
        entry.lookupV4 0x0A090105#32 = some 0x0A010305#32 ∧
        entry.realCidr.contains 0x0A010305#32 = false ∧
        entry.lookupV4 0x0A090005#32 = entry.lookupV4 0x0A090205#32 := by
  refine ⟨rfl, _, List.mem_singleton_self _, ?_⟩
  decide

end EasyTier.Gateway
