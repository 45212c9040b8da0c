import EasyTier.Data.BitBuffer

/-! # Packets and the peer manager header

A packet is taken after its tunnel header: the peer manager header and the payload. The header
fields the modelled code reads or writes are kept as the wire has them, flags included. A
buffer too short for the header never gets past the first test of any modelled function.
-/

namespace EasyTier.Packet

open Data

/-- A 32-bit peer id. -/
abbrev PeerId := Nat

inductive PacketType where
  | invalid
  | data
  | handShake
  | routePacket
  | ping
  | pong
  | taRpc
  | route
  | rpcReq
  | rpcResp
  | foreignNetworkPacket
  | kcpSrc
  | kcpDst
  | noiseHandshakeMsg1
  | noiseHandshakeMsg2
  | noiseHandshakeMsg3
  | quicSrc
  | quicDst
  | dataWithKcpSrcModified
  | dataWithQuicSrcModified
  | relayHandshake
  | relayHandshakeAck
  deriving DecidableEq

/-- The byte that stands for a packet type on the wire. -/
def PacketType.code : PacketType → Byte
  | .invalid => 0
  | .data => 1
  | .handShake => 2
  | .routePacket => 3
  | .ping => 4
  | .pong => 5
  | .taRpc => 6
  | .route => 7
  | .rpcReq => 8
  | .rpcResp => 9
  | .foreignNetworkPacket => 10
  | .kcpSrc => 11
  | .kcpDst => 12
  | .noiseHandshakeMsg1 => 13
  | .noiseHandshakeMsg2 => 14
  | .noiseHandshakeMsg3 => 15
  | .quicSrc => 16
  | .quicDst => 17
  | .dataWithKcpSrcModified => 18
  | .dataWithQuicSrcModified => 19
  | .relayHandshake => 20
  | .relayHandshakeAck => 21

/-- `PeerManagerHeaderFlags`: every bit of the byte has a name, so every byte is a flag set. -/
inductive Flag where
  | encrypted
  | latencyFirst
  | exitNode
  | noProxy
  | compressed
  | livenessProbe
  | notSendToTun
  | livenessEcho
  deriving DecidableEq

def Flag.mask : Flag → Byte
  | .encrypted => 0b00000001
  | .latencyFirst => 0b00000010
  | .exitNode => 0b00000100
  | .noProxy => 0b00001000
  | .compressed => 0b00010000
  | .livenessProbe => 0b00100000
  | .notSendToTun => 0b01000000
  | .livenessEcho => 0b10000000

/-- The position of a flag in the byte. -/
def Flag.bit : Flag → Nat
  | .encrypted => 0
  | .latencyFirst => 1
  | .exitNode => 2
  | .noProxy => 3
  | .compressed => 4
  | .livenessProbe => 5
  | .notSendToTun => 6
  | .livenessEcho => 7

theorem Flag.mask_eq_twoPow (flag : Flag) : flag.mask = BitVec.twoPow 8 flag.bit := by
  cases flag <;> rfl

structure PeerManagerHeader where
  fromPeerId : PeerId
  toPeerId : PeerId
  packetType : Byte
  flags : Byte
  forwardCounter : Nat
  reserved : Byte
  len : Nat
  deriving DecidableEq

variable (header : PeerManagerHeader) (on : Bool)

namespace PeerManagerHeader

def contains (flag : Flag) : Bool :=
  header.flags &&& flag.mask == flag.mask

/-- Insert or remove one flag. -/
def setFlag (flag : Flag) (on : Bool) : PeerManagerHeader :=
  { header with
    flags := if on then header.flags ||| flag.mask else header.flags &&& ~~~flag.mask }

def isEncrypted : Bool := header.contains .encrypted

def setEncrypted (on : Bool) : PeerManagerHeader :=
  header.setFlag .encrypted on

def isLatencyFirst : Bool := header.contains .latencyFirst

def setLatencyFirst (on : Bool) : PeerManagerHeader :=
  header.setFlag .latencyFirst on

def isCompressed : Bool := header.contains .compressed

def setCompressed (on : Bool) : PeerManagerHeader :=
  header.setFlag .compressed on

def clearLivenessMarker : PeerManagerHeader :=
  { (header.setFlag .livenessProbe false).setFlag .livenessEcho false with reserved := 0 }

/-- `set_liveness_probe` and `set_liveness_echo`, by the flag they set. -/
def setLivenessMarker (marker : Flag) (token : Byte) :
    PeerManagerHeader :=
  { header.clearLivenessMarker.setFlag marker true with reserved := token }

/-- The header carries the given packet type. -/
def hasType (packetType : PacketType) : Bool :=
  header.packetType == packetType.code

theorem contains_eq_getLsbD (flag : Flag) :
    header.contains flag = header.flags.getLsbD flag.bit := by
  have nonzero : BitVec.twoPow 8 flag.bit ≠ 0#8 := by cases flag <;> decide
  rw [contains, flag.mask_eq_twoPow, BitVec.and_twoPow]
  cases header.flags.getLsbD flag.bit with
  | false => simpa using Ne.symm nonzero
  | true => simp

/-- Writing one flag changes no other. -/
@[simp] theorem contains_setFlag (written : Flag) (on : Bool)
    (read : Flag) :
    (header.setFlag written on).contains read =
      if read = written then on else header.contains read := by
  have inside : read.bit < 8 := by cases read <;> decide
  have sameBit : written.bit = read.bit ↔ read = written := by
    cases written <;> cases read <;> decide
  rw [contains_eq_getLsbD, contains_eq_getLsbD, setFlag, written.mask_eq_twoPow]
  by_cases same : read = written
  · subst same
    cases on <;> simp [inside]
  · have apart : read.bit ≠ written.bit := fun equal => same (sameBit.mp equal.symm)
    cases on <;> simp [inside, same, apart]

@[simp] theorem isEncrypted_setEncrypted :
    (header.setEncrypted on).isEncrypted = on := by
  simp [setEncrypted, isEncrypted]

@[simp] theorem isEncrypted_setCompressed :
    (header.setCompressed on).isEncrypted = header.isEncrypted := by
  simp [setCompressed, isEncrypted]

@[simp] theorem isCompressed_setCompressed :
    (header.setCompressed on).isCompressed = on := by
  simp [setCompressed, isCompressed]

@[simp] theorem contains_clearLivenessMarker (read : Flag) :
    header.clearLivenessMarker.contains read =
      if read = .livenessProbe ∨ read = .livenessEcho then false else header.contains read := by
  have fields : header.clearLivenessMarker.contains read =
      ((header.setFlag .livenessProbe false).setFlag .livenessEcho false).contains read := rfl
  rw [fields, contains_setFlag, contains_setFlag]
  cases read <;> simp

@[simp] theorem contains_setLivenessMarker (marker : Flag)
    (token : Byte) (read : Flag) :
    (header.setLivenessMarker marker token).contains read =
      if read = marker then true else header.clearLivenessMarker.contains read := by
  have fields : (header.setLivenessMarker marker token).contains read =
      (header.clearLivenessMarker.setFlag marker true).contains read := rfl
  rw [fields, contains_setFlag]

end PeerManagerHeader

/-- How the next hop towards a peer is chosen. -/
inductive NextHopPolicy where
  | leastHop
  | leastCost
  deriving DecidableEq

/-- `get_next_hop_policy`. -/
def getNextHopPolicy (isLatencyFirst : Bool) : NextHopPolicy :=
  if isLatencyFirst then .leastCost else .leastHop

structure ZCPacket where
  header : PeerManagerHeader
  payload : Bytes
  deriving DecidableEq

/-- `StandardAeadTail`: the last 28 bytes of an encrypted payload. -/
structure AeadTail where
  tag : Bytes
  nonce : Bytes
  deriving DecidableEq

def AeadTail.tagSize : Nat := 16

def AeadTail.nonceSize : Nat := 12

def AeadTail.size : Nat := 28

/-- `StandardAeadTail::ref_from_suffix`; absent when the payload is shorter than the tail. -/
def AeadTail.refFromSuffix (payload : Bytes) : Option AeadTail :=
  if payload.length < AeadTail.size then
    none
  else
    let tail := payload.drop (payload.length - AeadTail.size)
    some { tag := tail.take AeadTail.tagSize, nonce := tail.drop AeadTail.tagSize }

def AeadTail.asBytes (tail : AeadTail) : Bytes := tail.tag ++ tail.nonce

end EasyTier.Packet
