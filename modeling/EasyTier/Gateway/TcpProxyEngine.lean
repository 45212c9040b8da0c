import EasyTier.Gateway.IpReassembler
import EasyTier.Packet.Header

/-! # Peer packets in the TCP proxy

The proxy rewrites TCP packets from peers so that they reach its local listener. The IPv4 header is
checked before anything else is read, and a packet that fails the check is passed on. The TCP
header is checked as well, but there a failure is a panic.
-/

namespace EasyTier.Gateway

open Data Packet BigEndian Ipv4 PacketType PeerManagerHeader

abbrev Ipv4Addr := BitVec 32

inductive SocketAddr where
  | v4 (ip : Ipv4Addr) (port : Nat)
  | v6 (ip : BitVec 128) (port flowinfo scopeId : Nat)
  deriving DecidableEq

/-! ## Networks -/

/-- The mask of a network of the given length. -/
def networkMask (networkLength : Nat) : Ipv4Addr := BitVec.allOnes 32 <<< (32 - networkLength)

/-- An address with its network. -/
structure Ipv4Inet where
  address : Ipv4Addr
  networkLength : Nat
  bounded : networkLength ≤ 32
  deriving DecidableEq

def Ipv4Inet.firstAddress (inet : Ipv4Inet) : Ipv4Addr :=
  inet.address &&& networkMask inet.networkLength

/-- A network, by its first address. -/
structure Ipv4Cidr where
  firstAddress : Ipv4Addr
  networkLength : Nat
  bounded : networkLength ≤ 32
  aligned : firstAddress &&& networkMask networkLength = firstAddress
  deriving DecidableEq

def Ipv4Cidr.contains (cidr : Ipv4Cidr) (ip : Ipv4Addr) : Bool :=
  ip &&& networkMask cidr.networkLength == cidr.firstAddress

structure ProxyCidrEntry where
  realCidr : Ipv4Cidr
  mappedCidr : Ipv4Cidr

def ProxyCidrEntry.lookupV4 (entry : ProxyCidrEntry) (ip : Ipv4Addr) : Option Ipv4Addr :=
  if !entry.mappedCidr.contains ip then
    none
  else if entry.mappedCidr = entry.realCidr then
    some ip
  else
    some ((ip &&& ~~~networkMask entry.mappedCidr.networkLength) ||| entry.realCidr.firstAddress)

/-! ## IPv4 and TCP headers in a buffer, after `smoltcp` -/

/-- `checksum::data`. -/
def checksumData (bytes : Bytes) : Nat := Ipv4.Header.propagateCarries (Ipv4.Header.wordSum bytes)

/-- `checksum::combine`. -/
def checksumCombine (checksums : List Nat) : Nat := Ipv4.Header.propagateCarries checksums.sum

namespace Ipv4View

def tcpProtocol : Nat := 6

def setSrcAddr (bytes : Bytes) (ip : Ipv4Addr) : Bytes := write bytes 12 4 ip.toNat

def setDstAddr (bytes : Bytes) (ip : Ipv4Addr) : Bytes := write bytes 16 4 ip.toNat

/-- What is written through `payload_mut`. -/
def setPayload (bytes payload : Bytes) : Bytes :=
  bytes.take (headerLen bytes) ++ payload ++ bytes.drop (totalLen bytes)

def fillChecksum (bytes : Bytes) : Bytes :=
  let zeroed := write bytes 10 2 0
  write zeroed 10 2 (2 ^ 16 - 1 - checksumData (zeroed.take (headerLen zeroed)))

end Ipv4View

open Ipv4View

variable (segment : Bytes)

namespace TcpView

/-- Length of a header without options. -/
def headerLength : Nat := 20

def srcPort : Nat := read segment 0 2

def dstPort : Nat := read segment 2 2

/-- The length of the header, which counts words of four bytes. -/
def headerLen : Nat := read segment 12 1 / 16 * 4

def ack : Bool := read segment 13 1 / 16 % 2 == 1

def syn : Bool := read segment 13 1 / 2 % 2 == 1

/-- The lengths that `new_checked` asks for. -/
def Checked : Prop :=
  headerLength ≤ segment.length ∧ headerLen segment ≤ segment.length ∧
    headerLength ≤ headerLen segment

instance (segment : Bytes) : Decidable (Checked segment) := inferInstanceAs (Decidable (_ ∧ _))

def setDstPort (port : Nat) : Bytes := write segment 2 2 port

/-- The checksum covers the addresses, the protocol and the length as well. -/
def fillChecksum (src dst : Ipv4Addr) : Bytes :=
  let zeroed := write segment 16 2 0
  let pseudoHeader := checksumCombine [checksumData (encode 4 src.toNat),
    checksumData (encode 4 dst.toNat),
    checksumData (encode 2 tcpProtocol ++ encode 2 zeroed.length)]
  write zeroed 16 2 (2 ^ 16 - 1 - checksumCombine [pseudoHeader, checksumData zeroed])

end TcpView

/-! ## The engine -/

inductive TcpProxyMode where
  | tcp
  | kcpSrc
  | quicSrc
  deriving DecidableEq

inductive TcpNatEntryState where
  | synReceived
  | connectingDst
  | connected
  | closingSrc
  | closingDst
  | closed
  deriving DecidableEq

/-- A proxied connection; the peer may have asked for a mapped address. -/
structure TcpNatEntry where
  id : Nat
  src : SocketAddr
  realDst : SocketAddr
  mappedDst : SocketAddr
  startTime : Nat
  startTimeUnixSecs : Nat
  state : TcpNatEntryState
  deriving DecidableEq

/-- What a new entry takes from its surroundings: a random id and the clocks. -/
structure NatStamp where
  id : Nat
  startTime : Nat
  startTimeUnixSecs : Nat

def TcpNatEntry.new (stamp : NatStamp) (src realDst mappedDst : SocketAddr) : TcpNatEntry where
  id := stamp.id
  src := src
  realDst := realDst
  mappedDst := mappedDst
  startTime := stamp.startTime
  startTimeUnixSecs := stamp.startTimeUnixSecs
  state := .synReceived

/-- The settings a packet from a peer is judged by. -/
structure TcpProxyPeerContext where
  localInet : Option Ipv4Inet
  virtualIpv4 : Option Ipv4Addr
  localPort : Nat
  enableExitNode : Bool
  noTun : Bool
  smoltcpEnabled : Bool

/-- Whether the engine takes a packet. -/
inductive TcpProxyPacketAction where
  | handled (newSyn : Bool)
  | pass
  deriving DecidableEq

/-- The parts of the engine that peer packets meet. -/
structure TcpProxyEngine where
  cidrTable : List ProxyCidrEntry
  synMap : AList fun _ : SocketAddr => TcpNatEntry
  addrConnMap : AList fun _ : SocketAddr => TcpNatEntry

/-- The calls of `expect` that a packet can get to. -/
inductive Expectation where
  | checkedIpv4Packet
  | checkedTcpPacket
  deriving DecidableEq

/-- The text of the panic. -/
def Expectation.message : Expectation → String
  | .checkedIpv4Packet => "checked ipv4 packet"
  | .checkedTcpPacket => "checked tcp packet"

variable (engine : TcpProxyEngine)

namespace TcpProxyEngine

def checkPacketFromPeerFast (mode : TcpProxyMode)
    (ctx : TcpProxyPeerContext) : Bool :=
  match mode with
  | .tcp => !engine.cidrTable.isEmpty || ctx.enableExitNode || ctx.noTun
  | .kcpSrc | .quicSrc => true

def realDstIpForMode (mode : TcpProxyMode) (originIp : Ipv4Addr)
    (isExitNode : Bool) (ctx : TcpProxyPeerContext) : Option Ipv4Addr :=
  match mode with
  | .tcp =>
    let noTunLocalVirtualIp := ctx.noTun && some originIp == ctx.virtualIpv4
    (engine.cidrTable.findSome? (·.lookupV4 originIp)).or
      (if isExitNode || noTunLocalVirtualIp then some originIp else none)
  | .kcpSrc | .quicSrc => some originIp

end TcpProxyEngine

/-- The packets that a mode looks at. -/
def TcpProxyMode.allows (mode : TcpProxyMode) (header : PeerManagerHeader) : Bool :=
  match mode with
  | .tcp => header.hasType .data
  | .kcpSrc => header.hasType .dataWithKcpSrcModified && header.fromPeerId == header.toPeerId
  | .quicSrc => header.hasType .dataWithQuicSrcModified && header.fromPeerId == header.toPeerId

def fakeLocalIpv4 (localInet : Ipv4Inet) : Ipv4Addr := localInet.firstAddress

def srcIp (payload : Bytes) : Ipv4Addr := BitVec.ofNat 32 (srcAddr payload)

def dstIp (payload : Bytes) : Ipv4Addr := BitVec.ofNat 32 (dstAddr payload)

namespace TcpProxyEngine

/-- The tests a packet must pass to be rewritten: the local network and the real destination. -/
def intercept (mode : TcpProxyMode) (packet : ZCPacket)
    (ctx : TcpProxyPeerContext) : Option (Ipv4Inet × Ipv4Addr) := do
  guard (engine.checkPacketFromPeerFast mode ctx)
  let localInet ← ctx.localInet
  guard (!packet.header.contains .noProxy)
  guard (mode.allows packet.header)
  guard (Checked packet.payload)
  guard (version packet.payload = 4 ∧ nextHeader packet.payload = tcpProtocol)
  let realDstIp ← engine.realDstIpForMode mode (dstIp packet.payload)
    (packet.header.contains .exitNode) ctx
  return (localInet, realDstIp)

def source (payload : Bytes) : SocketAddr :=
  .v4 (srcIp payload) (TcpView.srcPort (Ipv4.payload payload))

/-- A SYN opens a connection, any other packet must belong to one. -/
def track (stamp : NatStamp) (realDstIp : Ipv4Addr) (payload : Bytes) :
    Option (Bool × TcpProxyEngine) :=
  let segment := Ipv4.payload payload
  let src := source payload
  if TcpView.syn segment && !TcpView.ack segment then
    let mappedDst := .v4 (dstIp payload) (TcpView.dstPort segment)
    let realDst := .v4 realDstIp (TcpView.dstPort segment)
    some (true, { engine with
      synMap := engine.synMap.insert src (.new stamp src realDst mappedDst) })
  else if src ∉ engine.addrConnMap ∧ src ∉ engine.synMap then
    none
  else
    some (false, engine)

/-- The new addresses: the local one as destination, and in its place as source the first of its
network. -/
def readdress (ctx : TcpProxyPeerContext) (localInet : Ipv4Inet) (payload : Bytes) : Bytes :=
  let resourced :=
    if !ctx.smoltcpEnabled ∧ srcIp payload = localInet.address then
      setSrcAddr payload (fakeLocalIpv4 localInet)
    else
      payload
  setDstAddr resourced localInet.address

/-- The new port and the checksums. -/
def redirect (ctx : TcpProxyPeerContext) (localInet : Ipv4Inet) (readdressed : Bytes) : Bytes :=
  let segment := TcpView.setDstPort (payload readdressed) ctx.localPort
  fillChecksum (setPayload readdressed
    (TcpView.fillChecksum segment (srcIp readdressed) localInet.address))

/-- What is done with a packet that passed the tests. Its type is that of data from now on, also if
it is passed on. -/
def handleIntercepted (received : ZCPacket) (ctx : TcpProxyPeerContext)
    (stamp : NatStamp) (localInet : Ipv4Inet) (realDstIp : Ipv4Addr) :
    Except Expectation (TcpProxyPacketAction × TcpProxyEngine × ZCPacket) := do
  let retyped := { received with
    header := { received.header with packetType := PacketType.data.code } }
  let payload := retyped.payload
  if ¬Checked payload then throw .checkedIpv4Packet
  if ¬TcpView.Checked (Ipv4.payload payload) then throw .checkedTcpPacket
  (engine.track stamp realDstIp payload).elim (return (.pass, engine, retyped)) fun tracked => do
    if ¬Checked payload then throw .checkedIpv4Packet
    let readdressed := readdress ctx localInet payload
    if ¬TcpView.Checked (Ipv4.payload readdressed) then throw .checkedTcpPacket
    return (.handled tracked.1, tracked.2,
      { retyped with payload := redirect ctx localInet readdressed })

/-- `try_handle_peer_packet`: the verdict, the engine and the packet afterwards. -/
def tryHandlePeerPacket (mode : TcpProxyMode) (packet : ZCPacket)
    (ctx : TcpProxyPeerContext) (stamp : NatStamp) :
    Except Expectation (TcpProxyPacketAction × TcpProxyEngine × ZCPacket) :=
  (engine.intercept mode packet ctx).elim (.ok (.pass, engine, packet)) fun admitted =>
    engine.handleIntercepted packet ctx stamp admitted.1 admitted.2

/-! ## Which packets make it panic -/

/-- The packet passes every test before its TCP header is read. -/
structure Intercepted (engine : TcpProxyEngine) (mode : TcpProxyMode) (packet : ZCPacket)
    (ctx : TcpProxyPeerContext) : Prop where
  enabled : engine.checkPacketFromPeerFast mode ctx = true
  proxied : packet.header.contains .noProxy = false
  typed : mode.allows packet.header = true
  ipv4 : Checked packet.payload
  version : version packet.payload = 4
  tcp : nextHeader packet.payload = tcpProtocol
  routed : (engine.realDstIpForMode mode (dstIp packet.payload)
    (packet.header.contains .exitNode) ctx).isSome

/-- The packet opens a connection or belongs to one. -/
def Follows (payload : Bytes) : Prop :=
  (TcpView.syn (Ipv4.payload payload) = true ∧ TcpView.ack (Ipv4.payload payload) = false) ∨
    source payload ∈ engine.addrConnMap ∨ source payload ∈ engine.synMap

theorem isSome_track (stamp : NatStamp) (realDstIp : Ipv4Addr)
    (payload : Bytes) :
    (engine.track stamp realDstIp payload).isSome = true ↔ engine.Follows payload := by
  unfold track Follows
  simp only [Bool.and_eq_true, Bool.not_eq_true']
  split
  · rename_i opens
    simp [opens]
  rename_i opensNot
  split
  · rename_i unknown
    simp only [Option.isSome_none, Bool.false_eq_true, false_iff]
    rintro (opens | known | known)
    · exact opensNot opens
    · exact unknown.1 known
    · exact unknown.2 known
  · rename_i known
    simp only [Option.isSome_some, true_iff]
    rw [not_and_or, not_not, not_not] at known
    exact .inr known

theorem intercept_eq_some {engine : TcpProxyEngine} {mode : TcpProxyMode} {packet : ZCPacket}
    {ctx : TcpProxyPeerContext} {localInet : Ipv4Inet} :
    (∃ realDstIp, engine.intercept mode packet ctx = some (localInet, realDstIp)) ↔
      ctx.localInet = some localInet ∧ engine.Intercepted mode packet ctx := by
  simp only [intercept, Option.bind_eq_bind, Option.bind_eq_some_iff, Option.guard_eq_some',
    Option.pure_def, Option.some.injEq, Prod.mk.injEq, Bool.not_eq_true', exists_and_left,
    exists_const]
  constructor
  · rintro ⟨enabled, _, _, isInet, proxied, typed, ipv4, ⟨version, tcp⟩, _, found, rfl, rfl⟩
    exact ⟨isInet, enabled, proxied, typed, ipv4, version, tcp, by rw [found, Option.isSome_some]⟩
  · rintro ⟨isInet, enabled, proxied, typed, ipv4, version, tcp, routed⟩
    obtain ⟨realDstIp, found⟩ := Option.isSome_iff_exists.mp routed
    exact ⟨enabled, realDstIp, localInet, isInet, proxied, typed, ipv4, ⟨version, tcp⟩, realDstIp,
      found, rfl, rfl⟩

/-- A packet that passed the tests is handled if its segment is checked, before and after the new
addresses. Only a packet of no connection is then passed on, with the type of data. -/
theorem handleIntercepted_iff {engine : TcpProxyEngine} {received : ZCPacket}
    (ipv4 : Checked received.payload) (ctx : TcpProxyPeerContext) (stamp : NatStamp)
    (localInet : Ipv4Inet) (realDstIp : Ipv4Addr) :
    ((∃ verdict, engine.handleIntercepted received ctx stamp localInet realDstIp = .ok verdict) ↔
      TcpView.Checked (payload received.payload) ∧
      (engine.Follows received.payload →
        TcpView.Checked (payload (readdress ctx localInet received.payload)))) ∧
    ∀ after passed,
      engine.handleIntercepted received ctx stamp localInet realDstIp = .ok (.pass, after, passed) ↔
        (TcpView.Checked (payload received.payload) ∧ ¬ engine.Follows received.payload) ∧
        engine = after ∧
        { received with header := { received.header with packetType := data.code } } =
          passed := by
  rw [← isSome_track engine stamp realDstIp]
  unfold handleIntercepted
  simp only [ipv4, not_true_eq_false, if_false]
  by_cases tcp : TcpView.Checked (payload received.payload)
  · simp only [tcp, not_true_eq_false, if_false, true_and]
    cases engine.track stamp realDstIp received.payload with
    | none => simp [pure, Except.pure]
    | some tracked =>
      by_cases again : TcpView.Checked (payload (readdress ctx localInet received.payload))
      · simp [again, pure, Except.pure]
      · simp [again, throw, throwThe, MonadExceptOf.throw, bind, Except.bind]
  · simp [tcp, throw, throwThe, MonadExceptOf.throw, bind, Except.bind]

section Readdress

variable {payload : Bytes} (ctx : TcpProxyPeerContext) (localInet : Ipv4Inet)

/-- The new addresses change nothing but the bytes of the addresses. -/
theorem readdress_outside (complete : headerLength ≤ payload.length) :
    (readdress ctx localInet payload).length = payload.length ∧
      (readdress ctx localInet payload).take 12 = payload.take 12 ∧
      (readdress ctx localInet payload).drop 20 = payload.drop 20 := by
  unfold headerLength at complete
  have source : 12 + 4 ≤ payload.length := by omega
  have destination : 16 + 4 ≤ payload.length := by omega
  unfold readdress
  split
  · have written : 16 + 4 ≤ (setSrcAddr payload (fakeLocalIpv4 localInet)).length := by
      rw [setSrcAddr, length_write source]
      exact destination
    rw [setDstAddr, length_write written, take_write written _ (by omega),
      drop_write written _ (by omega), setSrcAddr, length_write source,
      take_write source _ (by omega), drop_write source _ (by omega)]
    exact ⟨rfl, rfl, rfl⟩
  · rw [setDstAddr, length_write destination,
      take_write destination _ (by omega), drop_write destination _ (by omega)]
    exact ⟨rfl, rfl, rfl⟩

/-- Behind a header of at least two words the new addresses leave the length of the TCP header
alone. -/
theorem checked_readdress (ipv4 : Checked payload) (apart : 8 ≤ Ipv4.headerLen payload) :
    TcpView.Checked (Ipv4.payload (readdress ctx localInet payload)) ↔
      TcpView.Checked (Ipv4.payload payload) := by
  obtain ⟨sameLength, front, back⟩ := readdress_outside ctx localInet ipv4.1
  have sameHeader : Ipv4.headerLen (readdress ctx localInet payload) = Ipv4.headerLen payload := by
    rw [Ipv4.headerLen, Ipv4.headerLen, read_eq_of_take_eq front (by omega)]
  have sameTotal : Ipv4.totalLen (readdress ctx localInet payload) = Ipv4.totalLen payload :=
    read_eq_of_take_eq front (by omega)
  have segmentLength : (Ipv4.payload (readdress ctx localInet payload)).length =
      (Ipv4.payload payload).length := by
    simp only [Ipv4.payload, List.length_take, List.length_drop, sameHeader, sameTotal, sameLength]
  have segmentBack : (Ipv4.payload (readdress ctx localInet payload)).drop 12 =
      (Ipv4.payload payload).drop 12 := by
    obtain ⟨rest, isRest⟩ :=
      Nat.exists_eq_add_of_le (show 20 ≤ Ipv4.headerLen payload + 12 by omega)
    rw [Ipv4.payload, Ipv4.payload, sameHeader, sameTotal, List.drop_take, List.drop_take,
      List.drop_drop, List.drop_drop, isRest, ← List.drop_drop, ← List.drop_drop, back]
  have sameTcp : TcpView.headerLen (Ipv4.payload (readdress ctx localInet payload)) =
      TcpView.headerLen (Ipv4.payload payload) := by
    rw [TcpView.headerLen, TcpView.headerLen, BigEndian.read, BigEndian.read, segmentBack]
  rw [TcpView.Checked, TcpView.Checked, segmentLength, sameTcp]

end Readdress

/-- A peer packet gets a verdict exactly if it is passed on before its TCP header is read, or that
header is complete. If the IPv4 header claims less than two words, the TCP header overlaps the
addresses and, in a packet that is followed, has to stay complete with the new ones. -/
theorem try_handle_peer_packet_returns (engine : TcpProxyEngine) (mode : TcpProxyMode)
    (packet : ZCPacket) (ctx : TcpProxyPeerContext) (stamp : NatStamp) :
    (∃ verdict, engine.tryHandlePeerPacket mode packet ctx stamp = .ok verdict) ↔
      ∀ localInet, ctx.localInet = some localInet → engine.Intercepted mode packet ctx →
        TcpView.Checked (Ipv4.payload packet.payload) ∧
        (Ipv4.headerLen packet.payload < 8 → engine.Follows packet.payload →
          TcpView.Checked (Ipv4.payload (readdress ctx localInet packet.payload))) := by
  unfold tryHandlePeerPacket
  cases admitted : engine.intercept mode packet ctx with
  | none =>
    refine iff_of_true ⟨_, rfl⟩ fun localInet isInet intercepted => ?_
    obtain ⟨realDstIp, found⟩ := intercept_eq_some.mpr ⟨isInet, intercepted⟩
    rw [admitted] at found
    cases found
  | some found =>
    obtain ⟨localInet, realDstIp⟩ := found
    obtain ⟨isInet, intercepted⟩ := intercept_eq_some.mp ⟨realDstIp, admitted⟩
    rw [Option.elim_some, (handleIntercepted_iff intercepted.ipv4 ctx stamp localInet realDstIp).1]
    constructor
    · rintro ⟨tcp, again⟩ other isOther _
      obtain rfl := Option.some.inj (isInet.symm.trans isOther)
      exact ⟨tcp, fun _ => again⟩
    · intro condition
      obtain ⟨tcp, again⟩ := condition localInet isInet intercepted
      refine ⟨tcp, fun follows => ?_⟩
      by_cases apart : 8 ≤ Ipv4.headerLen packet.payload
      · exact (checked_readdress ctx localInet intercepted.ipv4 apart).mpr tcp
      · exact again (Nat.lt_of_not_le apart) follows

/-- The later fragment of a TCP packet to a proxied network, eight bytes long. -/
private def laterFragment : ZCPacket where
  header := { fromPeerId := 1, toPeerId := 2, packetType := PacketType.data.code, flags := 0,
              forwardCounter := 0, reserved := 0, len := 28 }
  payload := [0x45, 0x00, 0x00, 0x1c, 0x00, 0x01, 0x00, 0xb9, 0x40, 0x06, 0x00, 0x00,
    10, 144, 144, 206, 10, 10, 10, 42, 1, 2, 3, 4, 5, 6, 7, 8]

/-- A node that proxies `127.0.0.0/24` as `10.10.10.0/24`. -/
private def proxyingEngine : TcpProxyEngine where
  cidrTable := [{ realCidr := ⟨0x7f000000, 24, by decide, by decide⟩
                  mappedCidr := ⟨0x0a0a0a00, 24, by decide, by decide⟩ }]
  synMap := ∅
  addrConnMap := ∅

private def proxyingContext : TcpProxyPeerContext where
  localInet := some ⟨0x0a9090cc, 24, by decide⟩
  virtualIpv4 := some 0x0a9090cc
  localPort := 8899
  enableExitNode := false
  noTun := false
  smoltcpEnabled := false

/-- Its first bytes are not a TCP header. -/
theorem later_fragment_panics :
    Ipv4.WellFormed laterFragment.payload ∧ Ipv4.fragOffset laterFragment.payload = 1480 ∧
      proxyingEngine.tryHandlePeerPacket .tcp laterFragment proxyingContext ⟨0, 0, 0⟩ =
        .error .checkedTcpPacket :=
  ⟨by decide, by decide, rfl⟩

/-! ## Packets that are passed on -/

/-- A packet that is passed on is the one that came, and the engine has not changed either. -/
def PassesUntouched (mode : TcpProxyMode) (packet : ZCPacket) (ctx : TcpProxyPeerContext)
    (stamp : NatStamp) : Prop :=
  ∀ after passed, engine.tryHandlePeerPacket mode packet ctx stamp = .ok (.pass, after, passed) →
    after = engine ∧ passed = packet

/-- Only the plain mode looks at packets that have the type of data already. -/
theorem typed_data_iff {mode : TcpProxyMode} {packet : ZCPacket}
    (typed : mode.allows packet.header = true) :
    { packet with header := { packet.header with packetType := data.code } } = packet ↔
      mode = .tcp := by
  have retyped : { packet with header := { packet.header with packetType := data.code } } =
      packet ↔ packet.header.packetType = data.code := by
    constructor
    · intro same
      rw [← same]
    · intro data
      rw [← data]
  rw [retyped]
  cases mode with
  | tcp => simpa [TcpProxyMode.allows, hasType] using typed
  | kcpSrc | quicSrc =>
    simp only [TcpProxyMode.allows, hasType, Bool.and_eq_true, beq_iff_eq] at typed
    simp [typed.1, code]

/-- A packet that is passed on is untouched exactly if it is passed on before its TCP header is
read, or in the plain mode: in the other two a packet of no connection comes back with another
type. -/
theorem passed_packet_untouched_iff (engine : TcpProxyEngine) (mode : TcpProxyMode)
    (packet : ZCPacket) (ctx : TcpProxyPeerContext) (stamp : NatStamp) :
    engine.PassesUntouched mode packet ctx stamp ↔
      (ctx.localInet.isSome = true → engine.Intercepted mode packet ctx →
        TcpView.Checked (payload packet.payload) → ¬ engine.Follows packet.payload →
        mode = .tcp) := by
  unfold PassesUntouched tryHandlePeerPacket
  cases admitted : engine.intercept mode packet ctx with
  | none =>
    refine iff_of_true ?_ fun isInet intercepted => ?_
    · rintro _ _ ⟨⟩
      exact ⟨rfl, rfl⟩
    · obtain ⟨localInet, isInet⟩ := Option.isSome_iff_exists.mp isInet
      obtain ⟨realDstIp, found⟩ := intercept_eq_some.mpr ⟨isInet, intercepted⟩
      rw [admitted] at found
      cases found
  | some found =>
    obtain ⟨isInet, intercepted⟩ := intercept_eq_some.mp ⟨found.2, admitted⟩
    simp only [Option.elim_some, (handleIntercepted_iff intercepted.ipv4 ..).2]
    constructor
    · intro untouched _ _ tcp unknown
      exact (typed_data_iff intercepted.typed).mp (untouched _ _ ⟨⟨tcp, unknown⟩, rfl, rfl⟩).2
    · rintro plain after passed ⟨⟨tcp, unknown⟩, rfl, rfl⟩
      refine ⟨rfl, (typed_data_iff intercepted.typed).mpr (plain ?_ intercepted tcp unknown)⟩
      rw [isInet, Option.isSome_some]

/-- An acknowledgement from the KCP proxy that belongs to no connection. -/
private def strayAck : ZCPacket where
  header :=
    { laterFragment.header with
      toPeerId := 1, packetType := PacketType.dataWithKcpSrcModified.code }
  payload := [0x45, 0x00, 0x00, 0x28, 0x00, 0x01, 0x00, 0x00, 0x40, 0x06, 0x00, 0x00,
    10, 144, 144, 206, 10, 10, 10, 42, 0x9c, 0x40, 0, 80, 0, 0, 0, 1, 0, 0, 0, 1, 0x50, 0x10, 1, 0,
    0, 0, 0, 0]

theorem stray_ack_passed_retyped :
    ∃ passed, proxyingEngine.tryHandlePeerPacket .kcpSrc strayAck proxyingContext ⟨0, 0, 0⟩ =
      .ok (.pass, proxyingEngine, passed) ∧ passed.header ≠ strayAck.header :=
  ⟨_, rfl, by decide⟩

end TcpProxyEngine

end EasyTier.Gateway
