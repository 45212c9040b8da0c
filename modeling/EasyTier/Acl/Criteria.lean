import EasyTier.Acl.CachedDecisions

/-! # What the criteria of a rule admit

Entries of a criterion that do not parse are dropped, and a criterion without entries admits
everything. So a criterion of which no entry parses admits everything.
-/

namespace EasyTier.Acl

section Listed

variable {Range : Type*} (parse : Text → Option Range)

/-- Some entry of the list parses. -/
def HasRange (listed : List Text) : Prop := ∃ text ∈ listed, ∃ range, parse text = some range

/-- Some entry of the list parses to a range that covers the value. -/
def InListedRange (covers : Range → Prop) (listed : List Text) : Prop :=
  ∃ text ∈ listed, ∃ range, parse text = some range ∧ covers range

variable {parse}

theorem InListedRange.hasRange {covers : Range → Prop} {listed : List Text}
    (inRange : InListedRange parse covers listed) : HasRange parse listed := by
  obtain ⟨text, member, range, parsed, -⟩ := inRange
  exact ⟨text, member, range, parsed⟩

/-- The check on the ranges that parsed: it counts only if there are some. -/
theorem check_filterMap_iff {listed : List Text} {test : Range → Bool} :
    ((listed.filterMap parse).isEmpty || (listed.filterMap parse).any test) = true ↔
      (HasRange parse listed → InListedRange parse (test · = true) listed) := by
  rw [Bool.or_eq_true, List.isEmpty_iff, List.any_eq_true, List.eq_nil_iff_forall_not_mem]
  constructor
  · rintro (empty | ⟨range, member, covers⟩) ⟨text, stated, found, parsed⟩
    · exact absurd (List.mem_filterMap.mpr ⟨text, stated, parsed⟩) (empty found)
    · obtain ⟨text, stated, parsed⟩ := List.mem_filterMap.mp member
      exact ⟨text, stated, range, parsed, covers⟩
  · intro inRange
    by_cases parses : HasRange parse listed
    · obtain ⟨text, stated, range, parsed, covers⟩ := inRange parses
      exact .inr ⟨range, List.mem_filterMap.mpr ⟨text, stated, parsed⟩, covers⟩
    · refine .inl fun range member => parses ?_
      obtain ⟨text, stated, parsed⟩ := List.mem_filterMap.mp member
      exact ⟨text, stated, range, parsed⟩

end Listed

/-! ## Criteria of a rule -/

section Criteria

variable (fromStr : Text → Option IpCidr)

/-- An address lies in a listed network. -/
def AddressListed (listed : List Text) (ip : IpAddr) : Prop :=
  InListedRange fromStr (·.contains ip = true) listed

/-- A port lies in a listed range; nothing is asked of a packet without ports. -/
def PortListed (listed : List Text) (port : Option Nat) : Prop :=
  ∀ number, port = some number →
    InListedRange parsePortRange (fun range => range.1 ≤ number ∧ number ≤ range.2) listed

/-- The rule matches a packet only within the ranges it lists. -/
def Rule.NeverWidens (rule : Rule) (packet : PacketInfo) : Prop :=
  ruleMatches (convertToFastLookupRule fromStr rule) packet = true →
    (rule.sourceIps ≠ [] → AddressListed fromStr rule.sourceIps packet.srcIp) ∧
      (rule.destinationIps ≠ [] → AddressListed fromStr rule.destinationIps packet.dstIp) ∧
      (rule.sourcePorts ≠ [] → PortListed rule.sourcePorts packet.srcPort) ∧
      (rule.ports ≠ [] → PortListed rule.ports packet.dstPort)

/-- Every list that is not empty has an entry that parses; lists of ports count for packets that
have ports. -/
def Rule.ListsParse (rule : Rule) (packet : PacketInfo) : Prop :=
  (rule.sourceIps ≠ [] → HasRange fromStr rule.sourceIps) ∧
    (rule.destinationIps ≠ [] → HasRange fromStr rule.destinationIps) ∧
    (packet.srcPort.isSome → rule.sourcePorts ≠ [] → HasRange parsePortRange rule.sourcePorts) ∧
    (packet.dstPort.isSome → rule.ports ≠ [] → HasRange parsePortRange rule.ports)

/-- The packet meets the criteria of the rule that are left when lists without a parsing entry are
crossed out. -/
def Rule.MeetsParsed (rule : Rule) (packet : PacketInfo) : Prop :=
  (rule.protocol = .any ∨ rule.protocol = packet.protocol) ∧
    (HasRange fromStr rule.sourceIps → AddressListed fromStr rule.sourceIps packet.srcIp) ∧
    (HasRange fromStr rule.destinationIps →
      AddressListed fromStr rule.destinationIps packet.dstIp) ∧
    (HasRange parsePortRange rule.sourcePorts → PortListed rule.sourcePorts packet.srcPort) ∧
    (HasRange parsePortRange rule.ports → PortListed rule.ports packet.dstPort) ∧
    (rule.sourceGroups ≠ [] → ∃ group ∈ packet.srcGroups, group ∈ rule.sourceGroups) ∧
    (rule.destinationGroups ≠ [] → ∃ group ∈ packet.dstGroups, group ∈ rule.destinationGroups)

variable {fromStr} {listed : List Text}

theorem ipMatches_filterMap_iff {ip : IpAddr} :
    ipMatches (listed.filterMap fromStr) ip = true ↔
      (HasRange fromStr listed → AddressListed fromStr listed ip) :=
  check_filterMap_iff

theorem portMatches_filterMap_iff {port : Option Nat} :
    portMatches (listed.filterMap parsePortRange) port = true ↔
      (HasRange parsePortRange listed → PortListed listed port) := by
  cases port with
  | none => simp [portMatches, PortListed]
  | some number =>
    rw [portMatches, check_filterMap_iff]
    simp [PortListed]

theorem groupMatches_iff {present : List Text} :
    groupMatches listed present = true ↔
      (listed ≠ [] → ∃ group ∈ present, group ∈ listed) := by
  cases listed <;> simp [groupMatches]

/-- A rule matches the packets that meet the criteria left after parsing. -/
theorem ruleMatches_convert_iff {rule : Rule} {packet : PacketInfo} :
    ruleMatches (convertToFastLookupRule fromStr rule) packet = true ↔
      rule.MeetsParsed fromStr packet := by
  simp only [ruleMatches, convertToFastLookupRule, Bool.and_eq_true, ipMatches_filterMap_iff,
    portMatches_filterMap_iff, groupMatches_iff, Bool.or_eq_true, beq_iff_eq, Rule.MeetsParsed,
    and_assoc]

/-- Within a criterion that is met as far as it parses, lying in a listed range is having one. -/
theorem listed_iff_hasRange {ip : IpAddr}
    (meets : HasRange fromStr listed → AddressListed fromStr listed ip) :
    (listed ≠ [] → AddressListed fromStr listed ip) ↔ (listed ≠ [] → HasRange fromStr listed) :=
  ⟨fun inRange stated => (inRange stated).hasRange, fun parses stated => meets (parses stated)⟩

theorem portListed_iff_hasRange {port : Option Nat}
    (meets : HasRange parsePortRange listed → PortListed listed port) :
    (listed ≠ [] → PortListed listed port) ↔
      (port.isSome → listed ≠ [] → HasRange parsePortRange listed) := by
  cases port with
  | none => simp [PortListed]
  | some number =>
    constructor
    · intro inRange _ stated
      exact (inRange stated number rfl).hasRange
    · intro parses stated
      exact meets (parses rfl stated)

/-- A rule never widens for a packet exactly if each of its lists has an entry that parses, or the
packet already misses a criterion that did parse. -/
theorem never_widens_iff (rule : Rule) (packet : PacketInfo) :
    rule.NeverWidens fromStr packet ↔
      rule.ListsParse fromStr packet ∨ ¬ rule.MeetsParsed fromStr packet := by
  rw [Rule.NeverWidens, ruleMatches_convert_iff]
  by_cases meets : rule.MeetsParsed fromStr packet
  · obtain ⟨-, source, destination, sourcePorts, ports, -⟩ := id meets
    simp only [meets, true_implies, not_true_eq_false, or_false, Rule.ListsParse,
      listed_iff_hasRange source, listed_iff_hasRange destination,
      portListed_iff_hasRange sourcePorts, portListed_iff_hasRange ports]
  · simp [meets]

/-- A rule for a port that was mistyped, with a letter for a digit. -/
def mistypedRule : Rule where
  priority := 10
  protocol := .tcp
  ports := [['4', '4', 'E']]
  action := .allow

/-- The mistyped rule matches web traffic, although no range it lists parses. -/
theorem mistyped_rule_widens : ¬ mistypedRule.NeverWidens (fun _ => none) webPacket := by
  intro neverWidens
  obtain ⟨-, -, -, ports⟩ := neverWidens (by decide)
  obtain ⟨text, member, range, parsed, -⟩ := ports (by decide) 80 rfl
  obtain rfl : text = ['4', '4', 'E'] := List.mem_singleton.mp member
  cases parsed

end Criteria

end EasyTier.Acl
