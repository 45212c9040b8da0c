import EasyTier.Data.BitBuffer

/-! # The layout of packet buffers

A packet buffer starts with room for the header of its tunnel, then come the peer manager header and
the payload. Converting a packet for another tunnel keeps what follows the tunnel header.
-/

namespace EasyTier.Packet

open Data

inductive ZCPacketType where
  | tcp | udp | wg | nic | dummyTunnel
  deriving DecidableEq, Repr

def tcpTunnelHeaderSize : Nat := 4
def udpTunnelHeaderSize : Nat := 8
def wgTunnelHeaderSize : Nat := 20
def peerManagerHeaderSize : Nat := 16

/-- The room in front of the peer manager header; a packet from the device has room for every tunnel
header. -/
def ZCPacketType.peerManagerHeaderOffset : ZCPacketType → Nat
  | .tcp => tcpTunnelHeaderSize
  | .udp => udpTunnelHeaderSize
  | .wg => wgTunnelHeaderSize
  | .nic => max (max tcpTunnelHeaderSize udpTunnelHeaderSize) wgTunnelHeaderSize
  | .dummyTunnel => 0

/-- The place of another tunnel's header, unless it takes more room than there is. -/
def ZCPacketType.convertedOffset (packetType target : ZCPacketType) : Option Nat :=
  if packetType.peerManagerHeaderOffset < target.peerManagerHeaderOffset then none
  else some (packetType.peerManagerHeaderOffset - target.peerManagerHeaderOffset)

/-- A packet as its buffer, with the type that says where its parts are. -/
structure PacketBuffer where
  inner : Bytes
  packetType : ZCPacketType
  deriving DecidableEq

namespace PacketBuffer

/-- `tunnel_payload`: what follows the tunnel header. -/
def tunnelPayload (packet : PacketBuffer) : Bytes :=
  packet.inner.drop packet.packetType.peerManagerHeaderOffset

/-- `convert_type`. Where there is too little room the packet is copied behind a header that is not
filled in yet, here with zeros. No packet is converted to one from the device, and a buffer that is
too short to be advanced panics. -/
def convertType (packet : PacketBuffer) (target : ZCPacketType) : Option PacketBuffer :=
  if target = packet.packetType then some packet
  else if target = .nic then none
  else
    match packet.packetType.convertedOffset target with
    | none =>
      if packet.inner.length < packet.packetType.peerManagerHeaderOffset then none
      else
        let unfilled := List.replicate target.peerManagerHeaderOffset 0#8
        some ⟨unfilled ++ packet.tunnelPayload, target⟩
    | some offset =>
      if packet.inner.length < offset then none else some ⟨packet.inner.drop offset, target⟩

/-- The room right in front of the tunnel payload holds the header of a TCP tunnel. -/
theorem drop_eq_header_append (packet : PacketBuffer)
    (room : tcpTunnelHeaderSize ≤ packet.packetType.peerManagerHeaderOffset)
    (complete : packet.packetType.peerManagerHeaderOffset ≤ packet.inner.length) :
    ∃ header : Bytes, header.length = tcpTunnelHeaderSize ∧
      packet.inner.drop (packet.packetType.peerManagerHeaderOffset - tcpTunnelHeaderSize) =
        header ++ packet.tunnelPayload := by
  refine ⟨(packet.inner.drop
    (packet.packetType.peerManagerHeaderOffset - tcpTunnelHeaderSize)).take tcpTunnelHeaderSize,
    ?_, ?_⟩
  · rw [List.length_take, List.length_drop]
    omega
  · conv_lhs => rw [← List.take_append_drop tcpTunnelHeaderSize (packet.inner.drop _)]
    rw [List.drop_drop, Nat.sub_add_cancel room, tunnelPayload]

/-- Conversion keeps the tunnel payload, and leaves a tunnel header in front of it. -/
theorem convertType_tcp {packet : PacketBuffer}
    (complete : packet.packetType.peerManagerHeaderOffset ≤ packet.inner.length) :
    ∃ header : Bytes, header.length = tcpTunnelHeaderSize ∧
      packet.convertType .tcp = some ⟨header ++ packet.tunnelPayload, .tcp⟩ := by
  have target : ZCPacketType.tcp.peerManagerHeaderOffset = tcpTunnelHeaderSize := rfl
  by_cases same : ZCPacketType.tcp = packet.packetType
  · have covered : 4 ≤ packet.packetType.peerManagerHeaderOffset := by
      rw [← same]
      exact Nat.le_of_eq target.symm
    obtain ⟨header, size, parts⟩ := packet.drop_eq_header_append covered complete
    rw [← same, target, Nat.sub_self, List.drop_zero] at parts
    refine ⟨header, size, ?_⟩
    rw [convertType, if_pos same, ← parts, same]
  · rw [convertType, if_neg same, if_neg (by decide), ZCPacketType.convertedOffset, target]
    by_cases narrow : packet.packetType.peerManagerHeaderOffset < tcpTunnelHeaderSize
    · rw [if_pos narrow]
      exact ⟨_, List.length_replicate, if_neg (Nat.not_lt.mpr complete)⟩
    obtain ⟨header, size, parts⟩ :=
      packet.drop_eq_header_append (Nat.not_lt.mp narrow) complete
    refine ⟨header, size, ?_⟩
    rw [if_neg narrow]
    dsimp only
    rw [if_neg (by omega), parts]

end PacketBuffer

end EasyTier.Packet
