import EasyTier.Acl.Chains
import EasyTier.Acl.Filter
import EasyTier.Packet.Ipv4

/-! # Filtering and IP fragments

The filter reads ports at the start of every IP payload, also in fragments that do not start with a
transport header, and lets through what is too short for one. So the fragments of a packet are
stopped with the packet, under every configuration, exactly if one of them happens to show the
packet's ports.
-/

namespace EasyTier.Acl

open Data Packet BigEndian Ipv4

/-- A well-formed packet is read as its header says. -/
theorem parseIpPacket_of_wellFormed {payload : Bytes} (wellFormed : Ipv4.WellFormed payload) :
    parseIpPacket payload = some {
      srcIp := .v4 (BitVec.ofNat 32 (srcAddr payload))
      dstIp := .v4 (BitVec.ofNat 32 (dstAddr payload))
      protocol := nextHeader payload
      transportPayload := Ipv4.payload payload } := by
  obtain ⟨version, header, declared, complete⟩ := wellFormed
  unfold headerLength at header
  have long : 20 ≤ payload.length := by omega
  have notEmpty : payload ≠ [] := by
    rintro rfl
    simp at long
  have start : min (20 + (headerLen payload - 20)) payload.length =
      headerLen payload := by omega
  have stop : min (headerLen payload + (totalLen payload - headerLen payload))
      payload.length = totalLen payload := by omega
  unfold Ipv4.version at version
  unfold parseIpPacket
  rw [if_neg notEmpty, version]
  unfold parseIpv4Packet
  rw [if_neg (by omega)]
  change some (ParsedIpPacket.mk _ _ _ ((payload.take (min (min (20 + (headerLen payload - 20))
    payload.length + (totalLen payload - headerLen payload)) payload.length)).drop
      (min (20 + (headerLen payload - 20)) payload.length))) = _
  rw [start, stop, List.drop_take]
  rfl

variable {order : List AclCacheKey} {filter : AclFilter} {moment : Moment}

namespace AclFilter

/-- The filter stops the packet. -/
def Rejects (filter : AclFilter) (context : FilterContext) (moment : Moment)
    (order : List AclCacheKey) (packet : ZCPacket) : Prop :=
  ∃ after, filter.processPacketWithAcl context moment order packet = some (false, after)

/-- What a filter with new rules and no records of packets let out rejects. -/
theorem rejects_reloadRules_iff {fromStr : Text → Option IpCidr}
    {acl : AclConfig} {context : FilterContext}
    {packet : ZCPacket} :
    (filter.reloadRules fromStr (some acl)).Rejects context moment order packet ↔
      packet.header.hasType .data = true ∧
        ∃ info rule, extractPacketInfo context.peerGroups packet = some info ∧
          ((AclProcessor.newWithSharedState fromStr acl filter.aclProcessor.connTrack
            filter.aclProcessor.rateLimiters).processPacket moment order info
              (classifyChainType context info)).map (·.1.decision) = some (.drop, rule) := by
  unfold Rejects processPacketWithAcl
  simp only [reloadRules, Bool.not_true, Bool.false_eq_true, if_false]
  cases isData : packet.header.hasType .data with
  | false => simp
  | true =>
    cases extracted : extractPacketInfo context.peerGroups packet with
    | none => simp
    | some info =>
      simp only [Bool.not_true, Bool.false_eq_true, if_false, true_and, Option.some.injEq,
        exists_and_left, exists_eq_left']
      cases (AclProcessor.newWithSharedState fromStr acl filter.aclProcessor.connTrack
        filter.aclProcessor.rateLimiters).processPacket moment order info
          (classifyChainType context info) with
      | none => simp
      | some processed =>
        obtain ⟨⟨action, matchedRule, shouldLog, logContext⟩, processor⟩ := processed
        cases action with
        | drop => simp [AclResult.decision, AList.lookup_empty]
        | allow | noop =>
          simp only [Option.map_some, AclResult.decision, Option.some.injEq, Prod.mk.injEq]
          split <;> simp

end AclFilter

open AclFilter

/-! ## A configuration that stops one pair of ports -/

/-- A decimal digit. -/
def digitChar (digit : Nat) : Char := Char.ofNat (48 + digit)

/-- A port number with five digits. -/
def portText (port : Nat) : Text :=
  [digitChar (port / 10000 % 10), digitChar (port / 1000 % 10), digitChar (port / 100 % 10),
    digitChar (port / 10 % 10), digitChar (port % 10)]

theorem digitChar_facts : ∀ digit < 10, toDigit (digitChar digit) = some digit ∧
    digitChar digit ≠ '-' ∧ digitChar digit ≠ '+' ∧ isWhitespace (digitChar digit) = false := by
  decide

theorem parsePortRange_portText {port : Nat} (small : port < 65536) :
    parsePortRange (portText port) = some (port, port) := by
  obtain ⟨first, firstDash, firstPlus, firstVisible⟩ :=
    digitChar_facts (port / 10000 % 10) (Nat.mod_lt _ (by decide))
  obtain ⟨second, secondDash, -, -⟩ := digitChar_facts (port / 1000 % 10) (Nat.mod_lt _ (by decide))
  obtain ⟨third, thirdDash, -, -⟩ := digitChar_facts (port / 100 % 10) (Nat.mod_lt _ (by decide))
  obtain ⟨fourth, fourthDash, -, -⟩ := digitChar_facts (port / 10 % 10) (Nat.mod_lt _ (by decide))
  obtain ⟨last, lastDash, -, lastVisible⟩ := digitChar_facts (port % 10) (Nat.mod_lt _ (by decide))
  have unsplit : splitOnce '-' (portText port) = none := by
    simp [splitOnce, portText, firstDash, secondDash, thirdDash, fourthDash, lastDash]
  have trimmed : trim (portText port) = portText port := by
    simp [trim, portText, firstVisible, lastVisible]
  have value : parseU16 (portText port) = some port := by
    simp only [portText, parseU16, if_neg firstPlus, parseDigits, first, second, third, fourth,
      last]
    rw [if_pos (by omega), if_pos (by omega), if_pos (by omega), if_pos (by omega),
      if_pos (by omega)]
    congr 1
    omega
  simp [parsePortRange, unsplit, trimmed, value]

def portRule (srcPort dstPort : Nat) : Rule where
  priority := 1
  sourcePorts := [portText srcPort]
  ports := [portText dstPort]
  action := .drop

def portChain (chainType : ChainType) (srcPort dstPort : Nat) : Chain where
  chainType := chainType
  rules := [portRule srcPort dstPort]
  defaultAction := .allow

/-- Packets of one type from one port to another are dropped, all others allowed. -/
def portAcl (chainType : ChainType) (srcPort dstPort : Nat) : AclConfig where
  aclV1 := some { chains := [portChain chainType srcPort dstPort] }

theorem ruleMatches_portRule (fromStr : Text → Option IpCidr) {srcPort dstPort : Nat}
    (srcSmall : srcPort < 65536) (dstSmall : dstPort < 65536) {info : PacketInfo} {src dst : Nat}
    (hasSrc : info.srcPort = some src) (hasDst : info.dstPort = some dst) :
    ruleMatches (convertToFastLookupRule fromStr (portRule srcPort dstPort)) info =
      decide (src = srcPort ∧ dst = dstPort) := by
  rw [Bool.eq_iff_iff]
  simp only [ruleMatches, convertToFastLookupRule, portRule, ipMatches, portMatches, groupMatches,
    List.filterMap_cons, List.filterMap_nil, parsePortRange_portText srcSmall,
    parsePortRange_portText dstSmall, hasSrc, hasDst, List.isEmpty_nil, List.isEmpty_cons,
    List.any_cons, List.any_nil, beq_self_eq_true, Bool.true_or, Bool.false_or, Bool.or_false,
    Bool.true_and, Bool.and_true, Bool.and_eq_true, decide_eq_true_eq]
  omega

/-- What the configuration decides for a packet with ports. -/
theorem portAcl_decision (fromStr : Text → Option IpCidr) {chainType : ChainType}
    (supported : chainType.Supported) {srcPort dstPort : Nat} (srcSmall : srcPort < 65536)
    (dstSmall : dstPort < 65536) (connTrack : ConnTrack) (rateLimiters : RateLimiters)
    {info : PacketInfo} {src dst : Nat} (hasSrc : info.srcPort = some src)
    (hasDst : info.dstPort = some dst) (moment : Moment) (order : List AclCacheKey) :
    ((AclProcessor.newWithSharedState fromStr (portAcl chainType srcPort dstPort) connTrack
        rateLimiters).processPacket moment order info chainType).map (·.1.decision) =
      some (if src = srcPort ∧ dst = dstPort then (.drop, some (.priority 1))
        else (.allow, some .default)) := by
  have chains : (portAcl chainType srcPort dstPort).enabledChains chainType =
      [portChain chainType srcPort dstPort] := by
    simp [AclConfig.enabledChains, AclConfig.chains, portAcl, portChain]
  have rules : (portChain chainType srcPort dstPort).sortedRules fromStr =
      [convertToFastLookupRule fromStr (portRule srcPort dstPort)] := by
    simp [Chain.sortedRules, portChain, portRule]
  have default : defaultActionOf (portAcl chainType srcPort dstPort) chainType = .allow := by
    simp [defaultActionOf, AclConfig.chains, portAcl, portChain]
  have enabled : (convertToFastLookupRule fromStr (portRule srcPort dstPort)).enabled = true := rfl
  rw [cold_decision, buildRules_ofType fromStr _ supported, chains, List.flatMap_singleton, rules]
  simp only [List.find?_cons, List.find?_nil, enabled, Bool.true_and, default,
    ruleMatches_portRule fromStr srcSmall dstSmall hasSrc hasDst]
  by_cases same : src = srcPort ∧ dst = dstPort
  · simp only [same, and_self, decide_true, if_true]
    rfl
  · simp only [same, decide_false, if_false]

/-! ## Packets and their fragments -/

/-- The ports a fragment shows where a transport header would be are those of the packet. -/
def ShowsPortsOf (packet fragment : Bytes) (minLen : Nat) : Prop :=
  minLen ≤ (Ipv4.payload fragment).length ∧
    read (Ipv4.payload fragment) 0 2 = read (Ipv4.payload packet) 0 2 ∧
    read (Ipv4.payload fragment) 2 2 = read (Ipv4.payload packet) 2 2

/-- A whole TCP or UDP packet, with the length of the shortest header of its protocol. -/
structure WholePacket (packet : Bytes) (minLen : Nat) : Prop where
  wellFormed : Ipv4.WellFormed packet
  unfragmented : Ipv4.Unfragmented packet
  transport : minTransportLen (Ipv4.nextHeader packet) = some minLen

/-- What the filter reads from a packet that is long enough. -/
def transportInfo (peerGroups : PeerId → List Text) (header : PeerManagerHeader) (payload : Bytes) :
    PacketInfo where
  srcIp := .v4 (BitVec.ofNat 32 (Ipv4.srcAddr payload))
  dstIp := .v4 (BitVec.ofNat 32 (Ipv4.dstAddr payload))
  srcPort := some (read (Ipv4.payload payload) 0 2)
  dstPort := some (read (Ipv4.payload payload) 2 2)
  protocol := aclProtocol (Ipv4.nextHeader payload)
  packetSize := payload.length
  srcGroups := peerGroups header.fromPeerId
  dstGroups := peerGroups header.toPeerId

theorem extractPacketInfo_of_wellFormed {peerGroups : PeerId → List Text}
    {header : PeerManagerHeader} {payload : Bytes} (wellFormed : Ipv4.WellFormed payload)
    {minLen : Nat} (transport : minTransportLen (nextHeader payload) = some minLen) :
    extractPacketInfo peerGroups ⟨header, payload⟩ =
      if (Ipv4.payload payload).length < minLen then none
      else some (transportInfo peerGroups header payload) := by
  simp only [extractPacketInfo, parseIpPacket_of_wellFormed wellFormed, parseTransportPorts,
    transport]
  split <;> rfl

theorem AclFilter.classifyChainType_supported (context : FilterContext) (info : PacketInfo) :
    (classifyChainType context info).Supported := by
  unfold classifyChainType ChainType.Supported
  split
  · split <;> simp
  · simp

section Evasion

variable (fromStr : Text → Option IpCidr) (context : FilterContext) (header : PeerManagerHeader)
  {packet : Bytes} {minLen : Nat} {fragment : Bytes}

section

variable (whole : WholePacket packet minLen)
include whole

theorem WholePacket.transport_fragment (ofPacket : Ipv4.FragmentOf packet fragment) :
    minTransportLen (nextHeader fragment) = some minLen := by
  rw [ofPacket.nextHeader, whole.transport]

section

variable (ofPacket : Ipv4.FragmentOf packet fragment)
include ofPacket

omit whole in
/-- Fragments are sorted into the chain of their packet. -/
theorem classifyChainType_fragment :
    classifyChainType context (transportInfo context.peerGroups header fragment) =
      classifyChainType context (transportInfo context.peerGroups header packet) := by
  have sameDst : (transportInfo context.peerGroups header fragment).dstIp =
      (transportInfo context.peerGroups header packet).dstIp := by
    simp only [transportInfo, ofPacket.dstAddr]
  rw [classifyChainType, classifyChainType, sameDst]

/-- A fragment that shows the ports of a packet is rejected where the packet is. -/
theorem rejects_of_showsPorts
    (shows : ShowsPortsOf packet fragment minLen) {acl : AclConfig}
    (rejected : (filter.reloadRules fromStr (some acl)).Rejects context moment order
      ⟨header, packet⟩) :
    (filter.reloadRules fromStr (some acl)).Rejects context moment order ⟨header, fragment⟩ := by
  obtain ⟨isData, info, rule, extracted, decided⟩ :=
    rejects_reloadRules_iff.mp rejected
  rw [extractPacketInfo_of_wellFormed whole.wellFormed whole.transport] at extracted
  split at extracted
  · cases extracted
  cases extracted
  obtain ⟨long, srcPort, dstPort⟩ := shows
  have sameInfo : transportInfo context.peerGroups header fragment =
      { transportInfo context.peerGroups header packet with packetSize := fragment.length } := by
    simp only [transportInfo, ofPacket.srcAddr, ofPacket.dstAddr, ofPacket.nextHeader, srcPort,
      dstPort]
  refine rejects_reloadRules_iff.mpr
    ⟨isData, transportInfo context.peerGroups header fragment, rule, ?_, ?_⟩
  · rw [extractPacketInfo_of_wellFormed ofPacket.wellFormed (whole.transport_fragment ofPacket),
      if_neg (Nat.not_lt.mpr long)]
  · -- rules that decide from a cold cache do not read the size
    rw [classifyChainType_fragment context header ofPacket, sameInfo, cold_decision, ← decided,
      cold_decision]
    rfl

omit ofPacket in
/-- The rules against the ports of a packet reject it. -/
theorem portAcl_rejects
    (isData : header.hasType .data = true) (long : minLen ≤ (Ipv4.payload packet).length)
    (filter : AclFilter) (moment : Moment) (order : List AclCacheKey) :
    (filter.reloadRules fromStr (some (portAcl
      (classifyChainType context (transportInfo context.peerGroups header packet))
      (read (Ipv4.payload packet) 0 2) (read (Ipv4.payload packet) 2 2)))).Rejects
      context moment order ⟨header, packet⟩ := by
  refine rejects_reloadRules_iff.mpr
    ⟨isData, transportInfo context.peerGroups header packet, some (.priority 1), ?_, ?_⟩
  · rw [extractPacketInfo_of_wellFormed whole.wellFormed whole.transport,
      if_neg (Nat.not_lt.mpr long)]
  · rw [portAcl_decision fromStr (classifyChainType_supported _ _)
      (read_lt _ 0 2) (read_lt _ 2 2) _ _ rfl rfl, if_pos ⟨rfl, rfl⟩]

/-- The rules against the ports of a packet reject only fragments that show them. -/
theorem showsPorts_of_portAcl_rejects
    (rejected : (filter.reloadRules fromStr (some (portAcl
      (classifyChainType context (transportInfo context.peerGroups header packet))
      (read (Ipv4.payload packet) 0 2) (read (Ipv4.payload packet) 2 2)))).Rejects
      context moment order ⟨header, fragment⟩) : ShowsPortsOf packet fragment minLen := by
  obtain ⟨-, info, rule, extracted, decided⟩ := rejects_reloadRules_iff.mp rejected
  rw [extractPacketInfo_of_wellFormed ofPacket.wellFormed (whole.transport_fragment ofPacket)]
    at extracted
  split at extracted
  case isTrue => cases extracted
  case isFalse long =>
    cases extracted
    rw [classifyChainType_fragment context header ofPacket,
      portAcl_decision fromStr (classifyChainType_supported _ _)
        (read_lt _ 0 2) (read_lt _ 2 2) _ _ rfl rfl] at decided
    split at decided
    case isTrue same => exact ⟨Nat.not_lt.mp long, same.1, same.2⟩
    case isFalse => cases decided

end

end

/-- Under every configuration that rejects a packet one of its fragments is rejected, exactly if one
of them shows the packet's ports, provided the packet is long enough to be rejected at all. -/
theorem fragments_rejected_iff (whole : WholePacket packet minLen)
    (isData : header.hasType .data = true) {fragments : List Bytes}
    (reassemble : Ipv4.ReassembleTo packet fragments) :
    (∀ (filter : AclFilter) (acl : AclConfig) (moment : Moment) (order : List AclCacheKey),
        (filter.reloadRules fromStr (some acl)).Rejects context moment order ⟨header, packet⟩ →
        ∃ fragment ∈ fragments,
          (filter.reloadRules fromStr (some acl)).Rejects context moment order
            ⟨header, fragment⟩) ↔
      (minLen ≤ (Ipv4.payload packet).length →
        ∃ fragment ∈ fragments, ShowsPortsOf packet fragment minLen) := by
  constructor
  · intro stopped long
    obtain ⟨fragment, member, rejected⟩ := stopped (.new fromStr) _ ⟨0, 0⟩ []
      (portAcl_rejects fromStr context header whole isData long _ _ _)
    exact ⟨fragment, member, showsPorts_of_portAcl_rejects fromStr context header whole
      (reassemble.pieces fragment member) rejected⟩
  · intro shown filter acl moment order rejected
    have long : minLen ≤ (payload packet).length := by
      obtain ⟨-, info, rule, extracted, -⟩ := rejects_reloadRules_iff.mp rejected
      rw [extractPacketInfo_of_wellFormed whole.wellFormed whole.transport] at extracted
      split at extracted
      case isTrue => cases extracted
      case isFalse long => exact Nat.not_lt.mp long
    obtain ⟨fragment, member, shows⟩ := shown long
    exact ⟨fragment, member, rejects_of_showsPorts fromStr context header whole
      (reassemble.pieces fragment member) shows rejected⟩

end Evasion

/-! ## A packet and two ways to split it -/

def addresses : Bytes := [0x0a, 0, 0, 1, 0x0a, 0, 0, 2]

/-- A TCP segment from port 40000 to port 80, with eight bytes of data. -/
def webSegment : Bytes :=
  [0x9c, 0x40, 0, 80, 0, 0, 0, 1, 0, 0, 0, 2, 0x50, 0x10, 0xff, 0xff, 0, 0, 0, 0,
    1, 2, 3, 4, 5, 6, 7, 8]

def wholeWebPacket : Bytes :=
  [0x45, 0, 0, 48, 0x1c, 0x46, 0, 0, 64, 6, 0, 0] ++ addresses ++ webSegment

/-- The first piece ends within the TCP header. -/
def tinyFragments : List Bytes :=
  [[0x45, 0, 0, 28, 0x1c, 0x46, 0x20, 0, 64, 6, 0, 0] ++ addresses ++ webSegment.take 8,
    [0x45, 0, 0, 40, 0x1c, 0x46, 0, 1, 64, 6, 0, 0] ++ addresses ++ webSegment.drop 8]

/-- The first piece holds the whole TCP header. -/
def largeFragments : List Bytes :=
  [[0x45, 0, 0, 44, 0x1c, 0x46, 0x20, 0, 64, 6, 0, 0] ++ addresses ++ webSegment.take 24,
    [0x45, 0, 0, 24, 0x1c, 0x46, 0, 3, 64, 6, 0, 0] ++ addresses ++ webSegment.drop 24]

/-- Packets that come in for the node with the second address. -/
def inboundContext : FilterContext where
  isIn := true
  myIpv4 := some 0x0a000002
  isLocalIpv6 := fun _ => false
  peerGroups := fun _ => []

def dataHeader : PeerManagerHeader where
  fromPeerId := 1
  toPeerId := 2
  packetType := PacketType.data.code
  flags := 0
  forwardCounter := 1
  reserved := 0
  len := 48

def webFilter : AclFilter :=
  (new fun _ => none).reloadRules (fun _ => none) (some (portAcl .inbound 40000 80))

theorem wholePacket_web : WholePacket wholeWebPacket 20 :=
  ⟨by decide +kernel, by decide +kernel, by decide +kernel⟩

theorem webFilter_rejects :
    webFilter.Rejects inboundContext ⟨0, 0⟩ [] ⟨dataHeader, wholeWebPacket⟩ := by
  obtain ⟨⟨passed, after⟩, processed, rejected⟩ := Option.map_eq_some_iff.mp
    (show (webFilter.processPacketWithAcl inboundContext ⟨0, 0⟩ []
      ⟨dataHeader, wholeWebPacket⟩).map Prod.fst = some false by decide +kernel)
  cases rejected
  exact ⟨after, processed⟩

/-- A rejected packet passes in two fragments. -/
theorem fragments_evade_filter :
    WholePacket wholeWebPacket 20 ∧ Ipv4.ReassembleTo wholeWebPacket tinyFragments ∧
      webFilter.Rejects inboundContext ⟨0, 0⟩ [] ⟨dataHeader, wholeWebPacket⟩ ∧
      ∀ fragment ∈ tinyFragments,
        ¬ webFilter.Rejects inboundContext ⟨0, 0⟩ [] ⟨dataHeader, fragment⟩ := by
  refine ⟨wholePacket_web, by decide +kernel, webFilter_rejects, ?_⟩
  rintro fragment member ⟨after, processed⟩
  have passes : ∀ fragment ∈ tinyFragments, (webFilter.processPacketWithAcl inboundContext ⟨0, 0⟩
      [] ⟨dataHeader, fragment⟩).map Prod.fst = some true := by
    decide +kernel
  have passed := passes fragment member
  rw [processed] at passed
  cases passed

/-- Split after its TCP header, the packet is stopped. -/
theorem large_fragments_rejected :
    WholePacket wholeWebPacket 20 ∧ Ipv4.ReassembleTo wholeWebPacket largeFragments ∧
      ∃ fragment ∈ largeFragments,
        webFilter.Rejects inboundContext ⟨0, 0⟩ [] ⟨dataHeader, fragment⟩ := by
  have reassemble : Ipv4.ReassembleTo wholeWebPacket largeFragments := by decide +kernel
  refine ⟨wholePacket_web, reassemble, ?_⟩
  refine (fragments_rejected_iff (fun _ => none) inboundContext dataHeader wholePacket_web
    (by decide +kernel) reassemble).mpr (fun _ => ?_) _ _ _ _ webFilter_rejects
  exact ⟨_, .head _, by decide +kernel, by decide +kernel, by decide +kernel⟩

end EasyTier.Acl
