import EasyTier.Data.AssocMap
import EasyTier.Data.Tiling
import EasyTier.Packet.Ipv4
import Mathlib.Data.List.Sort

/-! # Fragmenting and reassembling IPv4 packets

`composeIpv4Packet` cuts a payload into packets inside the buffer that holds it; `IpReassembler`
collects fragments by source, destination and identification until a payload is complete. Lengths
and offsets of the reassembler are numbers of sixteen bits that wrap around.
-/

namespace EasyTier.Gateway

open Data Packet Ipv4

/-! ## Reassembly -/

/-- The lengths that `new_checked` of `smoltcp` asks for. -/
def Checked (bytes : Bytes) : Prop :=
  headerLength ≤ bytes.length ∧ headerLen bytes ≤ bytes.length ∧
    headerLen bytes ≤ totalLen bytes ∧ totalLen bytes ≤ bytes.length

instance (bytes : Bytes) : Decidable (Checked bytes) := inferInstanceAs (Decidable (_ ∧ _))

/-- A packet whose lengths have been checked, as the proxies do before they hand it on. -/
structure Ipv4Packet where
  bytes : Bytes
  checked : Checked bytes

structure IpReassemblerKey where
  source : Nat
  destination : Nat
  id : Nat
  deriving Repr, DecidableEq

/-- The packet a fragment belongs to. -/
def Ipv4Packet.key (packet : Ipv4Packet) : IpReassemblerKey :=
  ⟨srcAddr packet.bytes, dstAddr packet.bytes, ident packet.bytes⟩

structure IpFragment where
  offset : Nat
  data : Bytes
  deriving Repr, DecidableEq

namespace IpFragment

def ofPacket (packet : Ipv4Packet) : IpFragment :=
  ⟨fragOffset packet.bytes, payload packet.bytes⟩

def stop (fragment : IpFragment) : Nat := (fragment.offset + fragment.data.length) % 2 ^ 16

/-- One of the two fragments starts within the other. -/
def overlaps (existing fragment : IpFragment) : Bool :=
  (decide (existing.offset ≤ fragment.offset) && decide (fragment.offset < existing.stop)) ||
    (decide (fragment.offset ≤ existing.offset) && decide (existing.offset < fragment.stop))

end IpFragment

/-- What is known of a packet in parts. -/
structure IpPacket where
  totalLength : Option Nat
  fragments : List IpFragment
  deriving Repr, DecidableEq

namespace IpPacket

def new : IpPacket := ⟨none, []⟩

/-- A fragment that overlaps one already there is ignored. -/
def addFragment (packet : IpPacket) (fragment : IpFragment) : IpPacket :=
  if packet.fragments.any fun existing => existing.overlaps fragment then packet
  else { packet with fragments := packet.fragments ++ [fragment] }

def setTotalLength (packet : IpPacket) (totalLength : Nat) : IpPacket :=
  { packet with totalLength := some totalLength }

/-- Put fragments one after the other as long as each starts where the one before ended. -/
def join : Nat → Bytes → List IpFragment → Option (Nat × Bytes)
  | offset, joined, [] => some (offset, joined)
  | offset, joined, fragment :: rest =>
    if fragment.offset ≠ offset then none
    else join ((offset + fragment.data.length) % 2 ^ 16) (joined ++ fragment.data) rest

def sorted (fragments : List IpFragment) : List IpFragment :=
  fragments.insertionSort fun first second => first.offset ≤ second.offset

/-- The payload, if its length is known and the fragments lead there. The fragments stay sorted. -/
def assemble (packet : IpPacket) : Option Bytes × IpPacket :=
  match packet.totalLength with
  | none => (none, packet)
  | some totalLength =>
    let payload := do
      let (offset, joined) ← join 0 [] (sorted packet.fragments)
      if offset = totalLength then some joined else none
    (payload, { packet with fragments := sorted packet.fragments })

end IpPacket

structure IpReassemblerValue where
  packet : IpPacket
  timestamp : Nat

/-- The packets of which fragments have come. -/
structure IpReassembler where
  packets : AList fun _ : IpReassemblerKey => IpReassemblerValue
  timeout : Nat

namespace IpReassembler

variable (reassembler : IpReassembler)

def new (timeout : Nat) : IpReassembler := ⟨∅, timeout⟩

def isLastFragment (packet : Ipv4Packet) : Bool := !Ipv4.moreFrags packet.bytes

/-- The value under a key, a new one if there is none. -/
def entry (key : IpReassemblerKey) (now : Nat) : IpReassemblerValue :=
  (reassembler.packets.lookup key).getD ⟨IpPacket.new, now⟩

/-- Take a fragment; the payload is returned, and the entry removed, when it is complete. -/
def addFragment (packet : Ipv4Packet) (now : Nat) : Option Bytes × IpReassembler :=
  let totalLength := totalLen packet.bytes - headerLen packet.bytes
  if totalLength ≠ (payload packet.bytes).length % 2 ^ 16 then (none, reassembler)
  else
    let fragment := IpFragment.ofPacket packet
    let known := (reassembler.entry packet.key now).packet
    let measured :=
      if isLastFragment packet then
        known.setTotalLength ((totalLength + fragment.offset) % 2 ^ 16)
      else known
    match (measured.addFragment fragment).assemble with
    | (some data, _) =>
      (some data, { reassembler with packets := reassembler.packets.erase packet.key })
    | (none, kept) =>
      (none, { reassembler with packets := reassembler.packets.insert packet.key ⟨kept, now⟩ })

/-- Fragments that arrive one after the other, each at its time. -/
def feed (arrivals : List (Ipv4Packet × Nat)) : IpReassembler :=
  arrivals.foldl (fun state arrival => (state.addFragment arrival.1 arrival.2).2) reassembler

end IpReassembler

/-! ## Fragmentation -/

structure ComposeIpv4PacketArgs where
  buf : Bytes
  srcV4 : BitVec 32
  dstV4 : BitVec 32
  nextProtocol : BitVec 8
  payloadLen : Nat
  payloadMtu : Nat
  ipId : BitVec 16

namespace ComposeIpv4PacketArgs

def totalPieces (args : ComposeIpv4PacketArgs) : Nat :=
  (args.payloadLen + args.payloadMtu - 1) / args.payloadMtu

/-- The key under which the packets composed are collected. -/
def key (args : ComposeIpv4PacketArgs) : IpReassemblerKey :=
  ⟨args.srcV4.toNat, args.dstV4.toNat, args.ipId.toNat⟩

/-- The header of one piece. The setters of the source overwrite every bit of the twenty bytes. -/
def header (args : ComposeIpv4PacketArgs) (fragmentOffset fragmentLen curPiece : Nat) :
    Ipv4.Header where
  totalLen := BitVec.ofNat 16 (fragmentLen + headerLength)
  ident := args.ipId
  dontFrag := !decide (1 < args.totalPieces)
  moreFrags := decide (1 < args.totalPieces) && decide (curPiece ≠ args.totalPieces - 1)
  fragOffset := if 1 < args.totalPieces then BitVec.ofNat 16 fragmentOffset else 0
  hopLimit := 32
  nextHeader := args.nextProtocol
  srcAddr := args.srcV4
  dstAddr := args.dstV4

end ComposeIpv4PacketArgs

section Compose

variable {State Error : Type} (args : ComposeIpv4PacketArgs)
  (cb : State → Bytes → Except Error State)

/-- The loop of `composeIpv4Packet`: the header of each piece goes right before its bytes, over the
end of the piece before. A packet that would leave the buffer is a panic. -/
def composeLoop (buf : Bytes) (bufOffset fragmentOffset curPiece : Nat) (state : State) :
    Option (Except Error State) :=
  if _more : 0 < args.payloadMtu ∧ fragmentOffset < args.payloadLen then
    let nextFragmentOffset := min (fragmentOffset + args.payloadMtu) args.payloadLen
    let fragmentLen := nextFragmentOffset - fragmentOffset
    let packetLen := fragmentLen + headerLength
    if buf.length < bufOffset + packetLen then none
    else
      let view := slice buf (bufOffset, packetLen)
      let packet := (args.header fragmentOffset fragmentLen curPiece).emit ++
        view.drop headerLength
      let written := buf.take bufOffset ++ (packet ++ buf.drop (bufOffset + packetLen))
      match cb state packet with
      | .error error => some (.error error)
      | .ok state =>
        composeLoop written (bufOffset + (nextFragmentOffset - fragmentOffset)) nextFragmentOffset
          (curPiece + 1) state
  else some (.ok state)
termination_by args.payloadLen - fragmentOffset

/-- Hand the packets of a payload to a callback one by one until it fails. The payload starts
behind room for one header. The number of pieces divides by the size of a piece, which panics
for size zero. -/
def composeIpv4Packet (state : State) : Option (Except Error State) :=
  if args.payloadMtu = 0 then none else composeLoop args cb args.buf 0 0 0 state

end Compose

/-- A callback that keeps what it is handed. -/
def collect (handed : List Bytes) (packet : Bytes) : Except Empty (List Bytes) :=
  .ok (handed ++ [packet])

end EasyTier.Gateway
