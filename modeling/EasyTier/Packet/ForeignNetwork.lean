import EasyTier.Data.BigEndian
import EasyTier.Data.Slices
import EasyTier.Packet.Header
import EasyTier.Packet.Layout

/-! # Packets of foreign networks

A relay carries the packets of another network inside packets of its own: behind the peer manager
header come a short header with the destination in the other network, the name of that network, and
the packet itself. The length of the short header and the place and the length of the name are
numbers in it, which the receiver takes as they come. A result of `none` stands for a panic.
-/

namespace EasyTier.Packet

open Data LittleEndian

/-! ## The peer manager header as bytes -/

namespace PeerManagerHeader

def toBytes (header : PeerManagerHeader) : Bytes :=
  encode 4 header.fromPeerId ++ encode 4 header.toPeerId ++
    [header.packetType, header.flags, BitVec.ofNat 8 header.forwardCounter, header.reserved] ++
    encode 4 header.len

/-- `ref_from_prefix`: the header in the first 16 bytes. -/
def refFromPrefix (bytes : Bytes) : Option PeerManagerHeader :=
  if bytes.length < peerManagerHeaderSize then none
  else
    some
      { fromPeerId := read bytes 0 4
        toPeerId := read bytes 4 4
        packetType := BitBuffer.byteAt bytes 8
        flags := BitBuffer.byteAt bytes 9
        forwardCounter := (BitBuffer.byteAt bytes 10).toNat
        reserved := BitBuffer.byteAt bytes 11
        len := read bytes 12 4 }

end PeerManagerHeader

namespace PacketBuffer

variable (packet : PacketBuffer)

def payloadOffset : Nat :=
  packet.packetType.peerManagerHeaderOffset + peerManagerHeaderSize

def payload : Option Bytes := rangeFrom? packet.inner packet.payloadOffset

/-- `peer_manager_header`, which is missing from a buffer that is too short for it. -/
def peerManagerHeader : Option PeerManagerHeader :=
  (rangeFrom? packet.inner packet.packetType.peerManagerHeaderOffset).bind
    PeerManagerHeader.refFromPrefix

/-- Write a peer manager header over the one in the buffer. -/
def writePeerManagerHeader (header : PeerManagerHeader) : Option PacketBuffer :=
  (copyInto? packet.inner packet.packetType.peerManagerHeaderOffset packet.payloadOffset
    header.toBytes).map fun inner => { packet with inner := inner }

def fillPeerManagerHdr (fromPeerId toPeerId : PeerId)
    (packetType : PacketType) : Option PacketBuffer :=
  packet.writePeerManagerHeader
    { fromPeerId := fromPeerId
      toPeerId := toPeerId
      packetType := packetType.code
      flags := 0
      forwardCounter := 1
      reserved := 0
      len := (packet.inner.length - packet.payloadOffset) % 2 ^ 32 }

end PacketBuffer

open PacketBuffer

/-! ## The header of a packet of a foreign network -/

/-- The bytes of a text. -/
def utf8Bytes (text : String) : Bytes := text.toUTF8.data.toList.map UInt8.toBitVec

/-- `std::str::from_utf8`. -/
def fromUtf8 (bytes : Bytes) : Option String :=
  String.fromUTF8? ⟨(bytes.map UInt8.ofBitVec).toArray⟩

theorem fromUtf8_utf8Bytes (text : String) : fromUtf8 (utf8Bytes text) = some text := by
  have bytes : (⟨((utf8Bytes text).map UInt8.ofBitVec).toArray⟩ : ByteArray) = text.toUTF8 := by
    rw [utf8Bytes, List.map_map, show UInt8.ofBitVec ∘ UInt8.toBitVec = id from rfl, List.map_id,
      Array.toArray_toList]
  rw [fromUtf8, bytes, String.fromUTF8?, String.toUTF8_eq_toByteArray, dif_pos text.isValidUTF8]
  rfl

def foreignNetworkPacketHeaderSize : Nat := 10

/-- The fields are 16-bit numbers but for the 32-bit peer id. -/
structure ForeignNetworkPacketHeader where
  headerLen : Nat
  dstPeerId : PeerId
  networkNameOffset : Nat
  networkNameLen : Nat
  deriving DecidableEq, Repr

open ForeignNetworkPacketHeader

namespace ForeignNetworkPacketHeader

/-- `new`, with the casts and the sum in 16 bits. -/
def new (dstPeerId : PeerId) (networkName : String) : ForeignNetworkPacketHeader :=
  let networkNameLen := (utf8Bytes networkName).length % 2 ^ 16
  { headerLen := (foreignNetworkPacketHeaderSize + networkNameLen) % 2 ^ 16
    dstPeerId := dstPeerId
    networkNameOffset := foreignNetworkPacketHeaderSize
    networkNameLen := networkNameLen }

def toBytes (header : ForeignNetworkPacketHeader) : Bytes :=
  encode 2 header.headerLen ++ encode 4 header.dstPeerId ++
    encode 2 header.networkNameOffset ++ encode 2 header.networkNameLen

/-- `ref_from_prefix`: the header in the first 10 bytes. -/
def refFromPrefix (bytes : Bytes) : Option ForeignNetworkPacketHeader :=
  if bytes.length < foreignNetworkPacketHeaderSize then none
  else
    some
      { headerLen := read bytes 0 2
        dstPeerId := read bytes 2 4
        networkNameOffset := read bytes 6 2
        networkNameLen := read bytes 8 2 }

/-- `get_network_name`: the slice and the `unwrap` of its text can panic. -/
def getNetworkName (header : ForeignNetworkPacketHeader) (zcPacketPayload : Bytes) :
    Option String :=
  (range? zcPacketPayload header.networkNameOffset
    (header.networkNameOffset + header.networkNameLen)).bind fromUtf8

end ForeignNetworkPacketHeader

namespace PacketBuffer

/-- `new_for_foreign_network`. The bytes of the new buffer are not filled in before they are
written, here they are zeros. -/
def newForForeignNetwork (networkName : String) (dstPeerId : PeerId)
    (foreignZcPacket : PacketBuffer) : Option PacketBuffer := do
  let header := new dstPeerId networkName
  let inner ← rangeFrom? foreignZcPacket.inner foreignZcPacket.packetType.peerManagerHeaderOffset
  let payloadOff := ZCPacketType.nic.peerManagerHeaderOffset + peerManagerHeaderSize
  let buffer : Bytes := List.replicate (payloadOff + (header.headerLen + inner.length)) 0#8
  let buffer ← copyInto? buffer payloadOff (payloadOff + foreignNetworkPacketHeaderSize)
    header.toBytes
  let buffer ← copyInto? buffer (payloadOff + header.networkNameOffset)
    (payloadOff + header.networkNameOffset + header.networkNameLen) (utf8Bytes networkName)
  let buffer ← copyInto? buffer (payloadOff + header.headerLen) buffer.length inner
  (PacketBuffer.mk buffer .nic).fillPeerManagerHdr 0 0 .foreignNetworkPacket

/-- `foreign_network_hdr`: the peer manager header has to be there, the other one may be missing. -/
def foreignNetworkHdr (packet : PacketBuffer) : Option (Option ForeignNetworkPacketHeader) := do
  let header ← packet.peerManagerHeader
  if header.hasType .foreignNetworkPacket then
    let payload ← packet.payload
    return refFromPrefix payload
  else return none

/-- `foreign_network_inner_packet_info`: the inner header and the length of its payload. -/
def foreignNetworkInnerPacketInfo (packet : PacketBuffer) :
    Option (Option (PeerManagerHeader × Nat)) :=
  match packet.peerManagerHeader with
  | none => some none
  | some header =>
    if !header.hasType .foreignNetworkPacket then some none
    else
      packet.payload.map fun payload => do
        let foreign ← refFromPrefix payload
        let inner ← rangeFrom? payload foreign.headerLen
        let innerHeader ← PeerManagerHeader.refFromPrefix inner
        return (innerHeader, inner.length - peerManagerHeaderSize)

/-- `foreign_network_packet`: `advance` panics at more than the length of the buffer. -/
def foreignNetworkPacket (packet : PacketBuffer) : Option PacketBuffer := do
  let foreign ← packet.foreignNetworkHdr
  let header ← foreign
  let inner ← rangeFrom? packet.inner (header.headerLen + packet.payloadOffset)
  return ⟨inner, .dummyTunnel⟩

end PacketBuffer

/-! ## The handler -/

/-- What the handler asks the node: its own id, its ids in the networks it relays, and whose id in
its own network belongs to an id in such a network. -/
structure ForeignNetworkContext where
  myPeerId : PeerId
  getNetworkPeerId : String → Option PeerId
  getOriginMyPeerId : String → PeerId → Option PeerId

inductive ForeignHandling where
  /-- The packet goes back to the caller. -/
  | returned (packet : PacketBuffer)
  /-- Relay data is dropped; the type of the inner packet is logged. -/
  | dropped (innerPacketType : Option Byte)
  /-- The inner packet is handed to the named network. -/
  | forwarded (networkName : String) (foreignPeerId : PeerId) (inner : PacketBuffer)
  /-- The packet is sent on, to the peer that relays the network. -/
  | sent (packet : PacketBuffer) (toPeerId : PeerId)

/-- `try_handle_foreign_network_packet`. Whether a send succeeds is only logged. -/
def tryHandleForeignNetworkPacket (context : ForeignNetworkContext) (dropRelayData : Bool)
    (packet : PacketBuffer) : Option ForeignHandling := do
  let header ← packet.peerManagerHeader
  if !header.hasType .foreignNetworkPacket then
    return .returned packet
  else if dropRelayData then
    let info ← packet.foreignNetworkInnerPacketInfo
    return .dropped (info.map (·.1.packetType))
  else
    let foreignHdr ← packet.foreignNetworkHdr
    let foreign ← foreignHdr
    let payload ← packet.payload
    let networkName ← foreign.getNetworkName payload
    if header.toPeerId = context.myPeerId then
      let inner ← packet.foreignNetworkPacket
      return .forwarded networkName foreign.dstPeerId inner
    else if some header.fromPeerId = context.getNetworkPeerId networkName then
      match context.getOriginMyPeerId networkName header.toPeerId with
      | none => return .returned packet
      | some toPeerId =>
        let packet ← packet.writePeerManagerHeader { header with toPeerId := toPeerId }
        return .sent packet toPeerId
    else return .returned packet

/-! ## What a header in the buffer gives -/

@[simp] theorem PeerManagerHeader.length_toBytes (header : PeerManagerHeader) :
    header.toBytes.length = peerManagerHeaderSize := by
  simp [toBytes, peerManagerHeaderSize]

@[simp] theorem ForeignNetworkPacketHeader.length_toBytes (header : ForeignNetworkPacketHeader) :
    header.toBytes.length = foreignNetworkPacketHeaderSize := by
  simp [toBytes, foreignNetworkPacketHeaderSize]

namespace PacketBuffer

variable {packet : PacketBuffer} {header : PeerManagerHeader}

section

variable (present : packet.peerManagerHeader = some header)
include present

theorem payloadOffset_le_of_header : packet.payloadOffset ≤ packet.inner.length := by
  obtain ⟨bytes, inside, read⟩ := Option.bind_eq_some_iff.mp present
  unfold rangeFrom? at inside
  unfold PeerManagerHeader.refFromPrefix at read
  split at inside
  · split at read
    · cases read
    rename_i offset long
    cases inside
    rw [List.length_drop] at long
    unfold payloadOffset
    omega
  · cases inside

/-- Behind a complete peer manager header there is a payload, however short. -/
theorem payload_of_header : packet.payload = some (packet.inner.drop packet.payloadOffset) :=
  if_pos (payloadOffset_le_of_header present)

theorem foreignNetworkHdr_of_header (foreign : header.hasType .foreignNetworkPacket = true) :
    packet.foreignNetworkHdr = some (refFromPrefix
      (packet.inner.drop packet.payloadOffset)) := by
  simp [foreignNetworkHdr, present, foreign, payload_of_header present]

theorem foreignNetworkInnerPacketInfo_isSome :
    packet.foreignNetworkInnerPacketInfo.isSome = true := by
  unfold foreignNetworkInnerPacketInfo
  rw [present, payload_of_header present]
  dsimp only
  split <;> rfl

theorem writePeerManagerHeader_isSome
    (written : PeerManagerHeader) : (packet.writePeerManagerHeader written).isSome = true := by
  have inside := payloadOffset_le_of_header present
  have room : packet.packetType.peerManagerHeaderOffset ≤ packet.payloadOffset :=
    Nat.le_add_right _ _
  have fits : written.toBytes.length =
      packet.payloadOffset - packet.packetType.peerManagerHeaderOffset := by
    rw [PeerManagerHeader.length_toBytes, payloadOffset, Nat.add_sub_cancel_left]
  rw [writePeerManagerHeader, copyInto?, if_pos ⟨room, inside, fits⟩]
  rfl

end

end PacketBuffer

/-! ## Which packets can be handled -/

/-- The bytes behind the peer manager header are a packet of a foreign network: the short header is
complete, the name it places lies inside and is a text, and a packet that is to be unwrapped is at
least as long as the header says. -/
structure Unwrappable (payload : Bytes) (unwrapped : Prop) : Prop where
  header : foreignNetworkPacketHeaderSize ≤ payload.length
  name : read payload 6 2 + read payload 8 2 ≤ payload.length
  text : (fromUtf8 ((payload.drop (read payload 6 2)).take
    (read payload 8 2))).isSome = true
  inner : unwrapped → read payload 0 2 ≤ payload.length

theorem ForeignNetworkPacketHeader.getNetworkName_isSome_iff {header : ForeignNetworkPacketHeader}
    {payload : Bytes} :
    (header.getNetworkName payload).isSome = true ↔
      header.networkNameOffset + header.networkNameLen ≤ payload.length ∧
        (fromUtf8 ((payload.drop header.networkNameOffset).take header.networkNameLen)).isSome =
          true := by
  unfold getNetworkName range?
  split
  · rename_i inside
    rw [Option.bind_some, Nat.add_sub_cancel_left]
    exact ⟨fun text => ⟨inside.2, text⟩, And.right⟩
  rename_i outside
  constructor
  · intro named
    cases named
  · intro inside
    exact absurd ⟨Nat.le_add_right _ _, inside.1⟩ outside

variable {header : PeerManagerHeader} {foreign : ForeignNetworkPacketHeader}

theorem PacketBuffer.foreignNetworkPacket_isSome_iff {packet : PacketBuffer}
    (present : packet.peerManagerHeader = some header)
    (typed : header.hasType .foreignNetworkPacket = true)
    (read : refFromPrefix (packet.inner.drop packet.payloadOffset) =
      some foreign) :
    packet.foreignNetworkPacket.isSome = true ↔
      foreign.headerLen ≤ (packet.inner.drop packet.payloadOffset).length := by
  have inside := payloadOffset_le_of_header present
  have shape : packet.foreignNetworkPacket =
      (rangeFrom? packet.inner (foreign.headerLen + packet.payloadOffset)).bind
        fun inner => some ⟨inner, .dummyTunnel⟩ := by
    simp [foreignNetworkPacket, foreignNetworkHdr_of_header present typed, read]
  rw [shape, Option.isSome_bind, List.length_drop]
  simp only [Option.isSome_some, Option.any_true, rangeFrom?_isSome_iff]
  omega

/-- The condition in terms of the header that is read. -/
theorem unwrappable_iff {payload : Bytes} {unwrapped : Prop}
    (read : refFromPrefix payload = some foreign) :
    Unwrappable payload unwrapped ↔
      (foreign.getNetworkName payload).isSome = true ∧
        (unwrapped → foreign.headerLen ≤ payload.length) := by
  unfold refFromPrefix at read
  split at read
  · cases read
  rename_i long
  cases read
  rw [getNetworkName_isSome_iff]
  constructor
  · intro fits
    exact ⟨⟨fits.name, fits.text⟩, fits.inner⟩
  · rintro ⟨⟨name, text⟩, inner⟩
    exact ⟨Nat.not_lt.mp long, name, text, inner⟩

/-- The handler gets through exactly when it drops the packet or the packet can be unwrapped. -/
theorem tryHandleForeignNetworkPacket_isSome_iff (context : ForeignNetworkContext)
    (dropRelayData : Bool) {packet : PacketBuffer}
    (present : packet.peerManagerHeader = some header)
    (typed : header.hasType .foreignNetworkPacket = true) :
    (tryHandleForeignNetworkPacket context dropRelayData packet).isSome = true ↔
      dropRelayData = true ∨
        Unwrappable (packet.inner.drop packet.payloadOffset)
          (header.toPeerId = context.myPeerId) := by
  cases dropRelayData with
  | true =>
    obtain ⟨info, logged⟩ :=
      Option.isSome_iff_exists.mp (foreignNetworkInnerPacketInfo_isSome present)
    simp [tryHandleForeignNetworkPacket, present, typed, logged]
  | false =>
    have payload := payload_of_header present
    have foreignHdr := foreignNetworkHdr_of_header present typed
    cases read : refFromPrefix (packet.inner.drop packet.payloadOffset) with
    | none =>
      have short : ¬ foreignNetworkPacketHeaderSize ≤
          (packet.inner.drop packet.payloadOffset).length := by
        unfold refFromPrefix at read
        split at read
        · omega
        · cases read
      constructor
      · intro handled
        simp [tryHandleForeignNetworkPacket, present, typed, foreignHdr, read] at handled
      · rintro (dropped | unwrappable)
        · cases dropped
        · exact absurd unwrappable.header short
    | some foreign =>
      rw [unwrappable_iff read, ← foreignNetworkPacket_isSome_iff present typed read]
      cases named : foreign.getNetworkName (packet.inner.drop packet.payloadOffset) with
      | none => simp [tryHandleForeignNetworkPacket, present, typed, foreignHdr, read, payload,
        named]
      | some networkName =>
        by_cases mine : header.toPeerId = context.myPeerId
        · cases unwrapped : packet.foreignNetworkPacket <;>
            simp [tryHandleForeignNetworkPacket, present, typed, foreignHdr, read, payload, named,
              mine, unwrapped]
        -- Whatever the node answers, the packet goes on as it is or with another receiver.
        have goesOn : (tryHandleForeignNetworkPacket context false packet).isSome = true := by
          simp only [tryHandleForeignNetworkPacket, present, typed, foreignHdr, read, payload,
            named, mine, Option.bind_eq_bind, Option.bind_some, Bool.not_true,
            Bool.false_eq_true, if_false]
          split
          · split
            · rfl
            · obtain ⟨sent, written⟩ := Option.isSome_iff_exists.mp
                (writePeerManagerHeader_isSome present
                  { header with toPeerId := _ })
              rw [written]
              rfl
          · rfl
        simp [goesOn, mine]

/-! ## Round trip -/

/-- Every field fits its width. -/
structure PeerManagerHeader.Fits (header : PeerManagerHeader) : Prop where
  fromPeerId : header.fromPeerId < 2 ^ 32
  toPeerId : header.toPeerId < 2 ^ 32
  forwardCounter : header.forwardCounter < 2 ^ 8
  len : header.len < 2 ^ 32

theorem PeerManagerHeader.refFromPrefix_toBytes (fits : header.Fits)
    (after : Bytes) : refFromPrefix (header.toBytes ++ after) = some header := by
  have long : ¬ (header.toBytes ++ after).length < peerManagerHeaderSize := by
    rw [List.length_append, length_toBytes]
    omega
  have fromPeerId : read (header.toBytes ++ after) 0 4 = header.fromPeerId := by
    simpa [toBytes] using read_append_encode [] _ rfl fits.fromPeerId
  have toPeerId : read (header.toBytes ++ after) 4 4 = header.toPeerId := by
    simpa [toBytes] using read_append_encode (encode 4 header.fromPeerId) _ (by simp) fits.toPeerId
  have len : read (header.toBytes ++ after) 12 4 = header.len := by
    simpa [toBytes] using read_append_encode
      (encode 4 header.fromPeerId ++ encode 4 header.toPeerId ++
        [header.packetType, header.flags, BitVec.ofNat 8 header.forwardCounter, header.reserved])
      _ (by simp) fits.len
  have counter : header.forwardCounter % 256 = header.forwardCounter :=
    Nat.mod_eq_of_lt fits.forwardCounter
  rw [refFromPrefix, if_neg long, fromPeerId, toPeerId, len]
  simp [BitBuffer.byteAt, toBytes, List.getElem?_append, counter]

/-- Every field fits its width. -/
structure ForeignNetworkPacketHeader.Fits (header : ForeignNetworkPacketHeader) : Prop where
  headerLen : header.headerLen < 2 ^ 16
  dstPeerId : header.dstPeerId < 2 ^ 32
  networkNameOffset : header.networkNameOffset < 2 ^ 16
  networkNameLen : header.networkNameLen < 2 ^ 16

theorem ForeignNetworkPacketHeader.refFromPrefix_toBytes {header : ForeignNetworkPacketHeader}
    (fits : header.Fits) (after : Bytes) :
    refFromPrefix (header.toBytes ++ after) = some header := by
  have long : ¬ (header.toBytes ++ after).length < foreignNetworkPacketHeaderSize := by
    rw [List.length_append, length_toBytes]
    omega
  have headerLen : read (header.toBytes ++ after) 0 2 = header.headerLen := by
    simpa [toBytes] using read_append_encode [] _ rfl fits.headerLen
  have dstPeerId : read (header.toBytes ++ after) 2 4 = header.dstPeerId := by
    simpa [toBytes] using read_append_encode (encode 2 header.headerLen) _ (by simp) fits.dstPeerId
  have nameOffset : read (header.toBytes ++ after) 6 2 = header.networkNameOffset := by
    simpa [toBytes] using read_append_encode
      (encode 2 header.headerLen ++ encode 4 header.dstPeerId) _
      (by simp) fits.networkNameOffset
  have nameLen : read (header.toBytes ++ after) 8 2 = header.networkNameLen := by
    simpa [toBytes] using read_append_encode
      (encode 2 header.headerLen ++ encode 4 header.dstPeerId ++
        encode 2 header.networkNameOffset) _ (by simp) fits.networkNameLen
  rw [refFromPrefix, if_neg long, headerLen, dstPeerId, nameOffset, nameLen]

namespace PacketBuffer

/-- The peer manager header of a new packet of a foreign network. -/
def foreignPeerManagerHeader (payloadLen : Nat) : PeerManagerHeader :=
  { fromPeerId := 0
    toPeerId := 0
    packetType := PacketType.foreignNetworkPacket.code
    flags := 0
    forwardCounter := 1
    reserved := 0
    len := payloadLen % 2 ^ 32 }

theorem foreignPeerManagerHeader_fits (payloadLen : Nat) :
    (foreignPeerManagerHeader payloadLen).Fits :=
  ⟨Nat.two_pow_pos 32, Nat.two_pow_pos 32, Nat.one_lt_two_pow (by decide),
    Nat.mod_lt _ (Nat.two_pow_pos 32)⟩

variable {networkName : String} {dstPeerId : PeerId}

theorem new_header_of_short (short : (utf8Bytes networkName).length ≤ 65525) :
    new dstPeerId networkName =
      { headerLen := 10 + (utf8Bytes networkName).length
        dstPeerId := dstPeerId
        networkNameOffset := 10
        networkNameLen := (utf8Bytes networkName).length } := by
  have len : (utf8Bytes networkName).length % 2 ^ 16 = (utf8Bytes networkName).length :=
    Nat.mod_eq_of_lt (by omega)
  have sum : (10 + (utf8Bytes networkName).length) % 2 ^ 16 =
      10 + (utf8Bytes networkName).length := Nat.mod_eq_of_lt (by omega)
  simp only [new, foreignNetworkPacketHeaderSize, len, sum]

/-- Three parts written one after the other into zeros, behind some room. -/
theorem copyInto?_parts (room : Nat) (header name packet : Bytes) :
    ((copyInto? (List.replicate (room + (header.length + name.length + packet.length)) 0#8) room
        (room + header.length) header).bind fun buffer =>
      (copyInto? buffer (room + header.length)
        (room + header.length + name.length) name).bind fun buffer =>
      copyInto? buffer (room + (header.length + name.length)) buffer.length packet) =
      some (List.replicate room 0#8 ++ (header ++ name ++ packet)) := by
  have zeros : List.replicate (room + (header.length + name.length + packet.length)) 0#8 =
      List.replicate room 0#8 ++ List.replicate header.length 0#8 ++
        (List.replicate name.length 0#8 ++ List.replicate packet.length 0#8) := by
    simp only [List.replicate_append_replicate]
    congr 1
    omega
  have last := copyInto?_append (List.replicate room 0#8 ++ header ++ name)
    (List.replicate packet.length 0#8) [] packet rfl rfl (by simp)
  rw [zeros, copyInto?_append _ _ _ _ (by simp) (by simp) (by simp), Option.bind_some,
    ← List.append_assoc, copyInto?_append (List.replicate room 0#8 ++ header) _ _ name (by simp)
      (by simp) (by simp), Option.bind_some]
  simp only [List.append_nil] at last
  rw [← List.append_assoc, ← List.append_assoc, ← last]
  congr 1 <;> simp
  omega

theorem fillPeerManagerHdr_nic {room old payload : Bytes} (roomSize : room.length = 20)
    (oldSize : old.length = 16) :
    (mk (room ++ old ++ payload) .nic).fillPeerManagerHdr 0 0 .foreignNetworkPacket =
      some ⟨room ++ (foreignPeerManagerHeader payload.length).toBytes ++ payload, .nic⟩ := by
  have rest : (room ++ old ++ payload).length - 36 = payload.length := by
    simp only [List.length_append]
    omega
  have header : (foreignPeerManagerHeader payload.length).toBytes.length = old.length := by
    rw [PeerManagerHeader.length_toBytes, oldSize]
    rfl
  have written : copyInto? (room ++ old ++ payload) 20 36
      (foreignPeerManagerHeader payload.length).toBytes =
      some (room ++ (foreignPeerManagerHeader payload.length).toBytes ++ payload) :=
    copyInto?_append _ _ _ _ roomSize.symm (by omega) header
  rw [← rest] at written ⊢
  exact congrArg (Option.map fun inner => mk inner .nic) written

/-- The buffer that is built: room for a tunnel header, the two headers, the name and the packet. -/
theorem newForForeignNetwork_eq {inner : PacketBuffer}
    (short : (utf8Bytes networkName).length ≤ 65525)
    (complete : inner.packetType.peerManagerHeaderOffset ≤ inner.inner.length) :
    newForForeignNetwork networkName dstPeerId inner =
      some ⟨List.replicate 20 0#8 ++
        (foreignPeerManagerHeader
          (10 + (utf8Bytes networkName).length + inner.tunnelPayload.length)).toBytes ++
        ((new dstPeerId networkName).toBytes ++
          utf8Bytes networkName ++ inner.tunnelPayload), .nic⟩ := by
  have payload : rangeFrom? inner.inner inner.packetType.peerManagerHeaderOffset =
      some inner.tunnelPayload := if_pos complete
  have size : (new dstPeerId networkName).toBytes.length = 10 := length_toBytes _
  have fields : (new dstPeerId networkName).headerLen = 10 + (utf8Bytes networkName).length ∧
      (new dstPeerId networkName).networkNameOffset = 10 ∧
      (new dstPeerId networkName).networkNameLen = (utf8Bytes networkName).length := by
    rw [new_header_of_short short]
    exact ⟨rfl, rfl, rfl⟩
  have written := copyInto?_parts 36 (new dstPeerId networkName).toBytes (utf8Bytes networkName)
    inner.tunnelPayload
  rw [size] at written
  unfold newForForeignNetwork
  simp only [payload, fields, Option.bind_eq_bind, Option.bind_some]
  refine Eq.trans ?_ ((congrArg (Option.bind · fun buffer =>
    (mk buffer .nic).fillPeerManagerHdr 0 0 .foreignNetworkPacket) written).trans ?_)
  · simp only [Option.bind_assoc]
    rfl
  · have cut : List.replicate 36 0#8 = List.replicate 20 0#8 ++ List.replicate 16 0#8 := rfl
    rw [Option.bind_some, cut, fillPeerManagerHdr_nic rfl rfl, List.length_append,
      List.length_append, size]

/-- A packet that is built is read back: the name, the destination and the inner packet. -/
theorem newForForeignNetwork_roundtrip
    {inner : PacketBuffer} (short : (utf8Bytes networkName).length ≤ 65525)
    (peer : dstPeerId < 2 ^ 32)
    (complete : inner.packetType.peerManagerHeaderOffset ≤ inner.inner.length) :
    ∃ packet foreign payload,
      newForForeignNetwork networkName dstPeerId inner = some packet ∧
      packet.foreignNetworkHdr = some (some foreign) ∧ packet.payload = some payload ∧
      foreign.getNetworkName payload = some networkName ∧ foreign.dstPeerId = dstPeerId ∧
      packet.foreignNetworkPacket = some ⟨inner.tunnelPayload, .dummyTunnel⟩ := by
  have header : new dstPeerId networkName = _ :=
    new_header_of_short short
  have fits : (new dstPeerId networkName).Fits := by
    rw [header]
    exact ⟨by dsimp only; omega, peer, by dsimp only; omega, by dsimp only; omega⟩
  have built : newForForeignNetwork networkName dstPeerId inner = some _ :=
    newForForeignNetwork_eq short complete
  have headerSize : (new dstPeerId networkName).toBytes.length = 10 :=
    length_toBytes _
  generalize new dstPeerId networkName = foreign at *
  generalize managerHeader : foreignPeerManagerHeader
    (10 + (utf8Bytes networkName).length + inner.tunnelPayload.length) = manager at built
  have managerFits : manager.Fits := managerHeader ▸ foreignPeerManagerHeader_fits _
  have typed : manager.hasType .foreignNetworkPacket = true := by
    rw [← managerHeader]
    rfl
  generalize packetIs : PacketBuffer.mk (List.replicate 20 0#8 ++ manager.toBytes ++
    (foreign.toBytes ++ utf8Bytes networkName ++ inner.tunnelPayload)) .nic = packet at built
  have offset : packet.payloadOffset = 36 := by rw [← packetIs]; rfl
  have payload : packet.inner.drop packet.payloadOffset =
      foreign.toBytes ++ utf8Bytes networkName ++ inner.tunnelPayload := by
    rw [offset, ← packetIs]
    exact List.drop_left' (by
      rw [List.length_append, List.length_replicate, PeerManagerHeader.length_toBytes]; rfl)
  have present : packet.peerManagerHeader = some manager := by
    rw [← packetIs, peerManagerHeader, List.append_assoc]
    have behindRoom : rangeFrom? (List.replicate 20 0#8 ++ (manager.toBytes ++
        (foreign.toBytes ++ utf8Bytes networkName ++ inner.tunnelPayload))) 20 = some _ :=
      rangeFrom?_append _ _ (List.length_replicate).symm
    exact (congrArg (Option.bind · _) behindRoom).trans
      (PeerManagerHeader.refFromPrefix_toBytes managerFits _)
  have read : packet.foreignNetworkHdr = some (some foreign) := by
    rw [foreignNetworkHdr_of_header present typed, payload, List.append_assoc,
      refFromPrefix_toBytes fits]
  refine ⟨packet, foreign, _, built, read, payload_of_header present, ?_, by rw [header], ?_⟩
  · rw [payload, getNetworkName, range?_append foreign.toBytes
      (utf8Bytes networkName) inner.tunnelPayload (by rw [headerSize, header])
      (by rw [headerSize, header])]
    exact fromUtf8_utf8Bytes networkName
  · have advanced : rangeFrom? packet.inner (foreign.headerLen + packet.payloadOffset) =
        some inner.tunnelPayload := by
      rw [offset, ← packetIs, ← List.append_assoc, ← List.append_assoc]
      refine rangeFrom?_append _ _ ?_
      simp only [List.length_append, List.length_replicate, PeerManagerHeader.length_toBytes,
        headerSize, peerManagerHeaderSize]
      rw [header]
      dsimp only
      omega
    simp [foreignNetworkPacket, read, advanced]

end PacketBuffer

/-- Every packet built for a foreign network is read back as it was built, and a received packet is
handled without a panic exactly when it is dropped or can be unwrapped. -/
theorem foreign_packets_roundtrip_and_handled (networkName : String) (dstPeerId : Nat)
    (inner : PacketBuffer) (context : ForeignNetworkContext) (dropRelayData : Bool)
    (packet : PacketBuffer) (header : PeerManagerHeader) :
    ((utf8Bytes networkName).length ≤ 65525 → dstPeerId < 2 ^ 32 →
      inner.packetType.peerManagerHeaderOffset ≤ inner.inner.length →
      ∃ packet foreign payload,
        newForForeignNetwork networkName dstPeerId inner = some packet ∧
        packet.foreignNetworkHdr = some (some foreign) ∧ packet.payload = some payload ∧
        foreign.getNetworkName payload = some networkName ∧ foreign.dstPeerId = dstPeerId ∧
        packet.foreignNetworkPacket = some ⟨inner.tunnelPayload, .dummyTunnel⟩) ∧
    (packet.peerManagerHeader = some header →
      header.hasType .foreignNetworkPacket = true →
      ((tryHandleForeignNetworkPacket context dropRelayData packet).isSome = true ↔
        dropRelayData = true ∨
          Unwrappable (packet.inner.drop packet.payloadOffset)
            (header.toPeerId = context.myPeerId))) :=
  ⟨newForForeignNetwork_roundtrip,
    tryHandleForeignNetworkPacket_isSome_iff context dropRelayData⟩

/-- A node with id 2 that relays no network. -/
def sampleContext : ForeignNetworkContext where
  myPeerId := 2
  getNetworkPeerId _ := none
  getOriginMyPeerId _ _ := none

/-- A packet of a foreign network, from 1 to 2, with the given bytes behind its header. -/
def samplePacket (payload : Bytes) : PacketBuffer :=
  ⟨[1, 0, 0, 0, 2, 0, 0, 0, 10, 0, 1, 0, 0, 0, 0, 0] ++ payload, .dummyTunnel⟩

/-- A payload too short for the header, one with a name that lies outside, one with a name that is
not text, and one that is shorter than its header says. -/
def malformedPayloads : List Bytes :=
  [[], [10, 0, 9, 0, 0, 0, 10, 0, 1, 0], [11, 0, 9, 0, 0, 0, 10, 0, 1, 0, 255],
    [12, 0, 9, 0, 0, 0, 10, 0, 1, 0, 97]]

/-- Each of the four makes the handler panic. -/
theorem malformed_packets_panic :
    (∀ payload ∈ malformedPayloads, ((samplePacket payload).peerManagerHeader.any
      (·.hasType .foreignNetworkPacket)) = true) ∧
    ∀ payload ∈ malformedPayloads,
      (tryHandleForeignNetworkPacket sampleContext false (samplePacket payload)).isNone = true := by
  decide +kernel

/-- A packet for network `a` that carries a packet of 16 bytes to its peer 9. -/
theorem sample_packet_roundtrips :
    (∃ packet foreign payload,
      newForForeignNetwork "a" 9 ⟨List.replicate 16 7, .dummyTunnel⟩ = some packet ∧
      packet.foreignNetworkHdr = some (some foreign) ∧ packet.payload = some payload ∧
      foreign.getNetworkName payload = some "a" ∧ foreign.dstPeerId = 9 ∧
      packet.foreignNetworkPacket = some ⟨List.replicate 16 7, .dummyTunnel⟩) ∧
    (tryHandleForeignNetworkPacket sampleContext false
      (samplePacket [11, 0, 9, 0, 0, 0, 10, 0, 1, 0, 97])).isSome = true := by
  obtain ⟨built, handled⟩ := foreign_packets_roundtrip_and_handled "a" 9
    ⟨List.replicate 16 7, .dummyTunnel⟩ sampleContext false
    (samplePacket [11, 0, 9, 0, 0, 0, 10, 0, 1, 0, 97]) _
  refine ⟨built (by decide +kernel) (by decide) (by decide), (handled rfl rfl).mpr (.inr ?_)⟩
  exact ⟨by decide +kernel, by decide +kernel, by decide +kernel, fun _ => by decide +kernel⟩

end EasyTier.Packet
