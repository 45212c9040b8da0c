import EasyTier.Acl.CachedDecisions
import EasyTier.Data.BigEndian
import EasyTier.Packet.Header

/-! # The packet filter

Data packets are read as IP packets, classified by direction, and decided by the processor. What
cannot be read is let through, and so are the answers to packets that were let out.
-/

namespace EasyTier.Acl

open Data Packet BigEndian

/-! ## Reading packets -/

def ipProtoIcmp : Nat := 1
def ipProtoTcp : Nat := 6
def ipProtoUdp : Nat := 17
def ipProtoIcmpv6 : Nat := 58

structure ParsedIpPacket where
  srcIp : IpAddr
  dstIp : IpAddr
  protocol : Nat
  transportPayload : Bytes
  deriving DecidableEq

/-- `parse_ipv4_packet`: the place of a fragment is not looked at. -/
def parseIpv4Packet (payload : Bytes) : Option ParsedIpPacket :=
  if payload.length < 20 then none
  else
    let headerLen := read payload 0 1 % 16 * 4
    let optionsLen := headerLen - 20
    let payloadStart := min (20 + optionsLen) payload.length
    let totalLength := read payload 2 2
    let payloadLen := totalLength - headerLen
    let payloadEnd := min (payloadStart + payloadLen) payload.length
    some {
      srcIp := .v4 (BitVec.ofNat 32 (read payload 12 4))
      dstIp := .v4 (BitVec.ofNat 32 (read payload 16 4))
      protocol := read payload 9 1
      transportPayload := (payload.take payloadEnd).drop payloadStart }

/-- `parse_ipv6_packet`. -/
def parseIpv6Packet (payload : Bytes) : Option ParsedIpPacket :=
  if payload.length < 40 then none
  else
    let payloadLen := read payload 4 2
    let payloadEnd := min (40 + payloadLen) payload.length
    some {
      srcIp := .v6 (BitVec.ofNat 128 (read payload 8 16))
      dstIp := .v6 (BitVec.ofNat 128 (read payload 24 16))
      protocol := read payload 6 1
      transportPayload := (payload.take payloadEnd).drop 40 }

/-- `parse_ip_packet`. -/
def parseIpPacket (payload : Bytes) : Option ParsedIpPacket :=
  if payload = [] then none
  else
    match read payload 0 1 / 16 with
    | 4 => parseIpv4Packet payload
    | 6 => parseIpv6Packet payload
    | _ => none

/-- The shortest transport header with ports, for the protocols that have them. -/
def minTransportLen (protocol : Nat) : Option Nat :=
  if protocol = ipProtoTcp then some 20
  else if protocol = ipProtoUdp then some 8
  else none

/-- `parse_transport_ports`. -/
def parseTransportPorts (protocol : Nat) (payload : Bytes) : Option (Option Nat × Option Nat) :=
  match minTransportLen protocol with
  | none => some (none, none)
  | some minLen =>
    if payload.length < minLen then none
    else some (some (read payload 0 2), some (read payload 2 2))

/-- `acl_protocol`. -/
def aclProtocol (protocol : Nat) : Protocol :=
  if protocol = ipProtoTcp then .tcp
  else if protocol = ipProtoUdp then .udp
  else if protocol = ipProtoIcmp then .icmp
  else if protocol = ipProtoIcmpv6 then .icmpv6
  else .unspecified

/-- `extract_packet_info`, with the groups the route gives to peers. -/
def extractPacketInfo (peerGroups : PeerId → List Text) (packet : ZCPacket) : Option PacketInfo :=
  match parseIpPacket packet.payload with
  | none => none
  | some parsed =>
    (parseTransportPorts parsed.protocol parsed.transportPayload).map fun ports =>
      { srcIp := parsed.srcIp
        dstIp := parsed.dstIp
        srcPort := ports.1
        dstPort := ports.2
        protocol := aclProtocol parsed.protocol
        packetSize := packet.payload.length
        srcGroups := peerGroups packet.header.fromPeerId
        dstGroups := peerGroups packet.header.toPeerId }

/-- Packet infos read from packets have ports exactly for TCP and UDP. -/
theorem portsByProtocol_of_extractPacketInfo {peerGroups : PeerId → List Text} {packet : ZCPacket}
    {info : PacketInfo} (extracted : extractPacketInfo peerGroups packet = some info) :
    info.PortsByProtocol := by
  unfold extractPacketInfo at extracted
  split at extracted
  · cases extracted
  case h_2 parsed _ =>
    obtain ⟨ports, read, rfl⟩ := Option.map_eq_some_iff.mp extracted
    unfold parseTransportPorts minTransportLen at read
    unfold PacketInfo.PortsByProtocol aclProtocol
    by_cases tcp : parsed.protocol = ipProtoTcp
    · rw [if_pos tcp] at read ⊢
      dsimp only at read
      split at read
      · cases read
      cases read
      simp
    by_cases udp : parsed.protocol = ipProtoUdp
    · rw [if_neg tcp, if_pos udp] at read ⊢
      dsimp only at read
      split at read
      · cases read
      cases read
      simp
    rw [if_neg tcp, if_neg udp] at read ⊢
    cases read
    split <;> try split
    all_goals simp

/-! ## Records of packets that were let out -/

structure OutboundAllowRecord where
  srcIp : IpAddr
  dstIp : IpAddr
  srcPort : Option Nat
  dstPort : Option Nat
  protocol : Protocol
  deriving DecidableEq

def OutboundAllowRecord.newFromInboundPacket (info : PacketInfo) : OutboundAllowRecord :=
  ⟨info.srcIp, info.dstIp, info.srcPort, info.dstPort, info.protocol⟩

/-- The record of the answer: both ends exchanged. -/
def OutboundAllowRecord.newFromOutboundPacket (info : PacketInfo) : OutboundAllowRecord :=
  ⟨info.dstIp, info.srcIp, info.dstPort, info.srcPort, info.protocol⟩

/-! ## The filter -/

structure AclFilter where
  aclProcessor : AclProcessor
  aclEnabled : Bool
  outboundAllowRecords : AList fun _ : OutboundAllowRecord => Nat

/-- What the filter is told about the node and its routes. -/
structure FilterContext where
  isIn : Bool
  myIpv4 : Option (BitVec 32)
  isLocalIpv6 : BitVec 128 → Bool
  peerGroups : PeerId → List Text

namespace AclFilter

/-- `AclFilter::new`: no rules, and not in force. -/
def new (fromStr : Text → Option IpCidr) : AclFilter where
  aclProcessor := .new fromStr ⟨none⟩
  aclEnabled := false
  outboundAllowRecords := ∅

/-- `reload_rules`. -/
def reloadRules (filter : AclFilter) (fromStr : Text → Option IpCidr) :
    Option AclConfig → AclFilter
  | none => { filter with outboundAllowRecords := ∅, aclEnabled := false }
  | some acl =>
    { aclProcessor := .newWithSharedState fromStr acl filter.aclProcessor.connTrack
        filter.aclProcessor.rateLimiters
      aclEnabled := true
      outboundAllowRecords := ∅ }

/-- The destination is this node; without an own address the unspecified one stands in for it. -/
def isLocalDst (context : FilterContext) (dstIp : IpAddr) : Bool :=
  dstIp == .v4 (context.myIpv4.getD 0) ||
    match dstIp with
    | .v6 dst => context.isLocalIpv6 dst
    | .v4 _ => false

/-- `classify_chain_type`. -/
def classifyChainType (context : FilterContext) (info : PacketInfo) : ChainType :=
  if context.isIn then if isLocalDst context info.dstIp then .inbound else .forward
  else .outbound

/-- `process_packet_with_acl`: whether the packet may pass, and the filter after it. -/
def processPacketWithAcl (filter : AclFilter) (context : FilterContext) (moment : Moment)
    (order : List AclCacheKey) (packet : ZCPacket) : Option (Bool × AclFilter) :=
  if !filter.aclEnabled then some (true, filter)
  else if !packet.header.hasType .data then some (true, filter)
  else
    match extractPacketInfo context.peerGroups packet with
    -- Packets that cannot be read are allowed.
    | none => some (true, filter)
    | some info =>
      let chainType := classifyChainType context info
      (filter.aclProcessor.processPacket moment order info chainType).map fun (result, processor) =>
        let filter := { filter with aclProcessor := processor }
        match result.action with
        | .allow | .noop =>
          if chainType = .outbound then
            let record := OutboundAllowRecord.newFromOutboundPacket info
            (true, { filter with
              outboundAllowRecords := filter.outboundAllowRecords.insert record moment.instant })
          else (true, filter)
        | .drop =>
          let record := OutboundAllowRecord.newFromInboundPacket info
          if context.isIn && (filter.outboundAllowRecords.lookup record).isSome then
            (true, { filter with
              outboundAllowRecords := filter.outboundAllowRecords.insert record moment.instant })
          else (false, filter)

end AclFilter

end EasyTier.Acl
