import EasyTier.Data.Tiling
import EasyTier.Packet.Header
import Mathlib.Data.Nat.Log

/-! # RPC packets in pieces

Contents that do not fit into one UDP payload travel in several packets. The merger collects them,
in any order, in slots that hold a default packet until theirs arrives.
-/

namespace EasyTier.Rpc

open Data Packet

structure RpcDescriptor where
  domainName : String
  protoName : String
  serviceName : String
  methodIndex : Nat
  deriving DecidableEq, Repr

/-- The code of `CompressionAlgoPb::None`. -/
def compressionNone : Int := 1

structure RpcCompressionInfo where
  algo : Int
  acceptedAlgo : Int
  deriving DecidableEq, Repr

/-- The message `RpcPacket`; its default values are those of an empty message. -/
structure RpcPacket where
  fromPeer : PeerId := 0
  toPeer : PeerId := 0
  transactionId : Int := 0
  descriptor : Option RpcDescriptor := none
  body : Bytes := []
  isRequest : Bool := false
  totalPieces : Nat := 0
  pieceIdx : Nat := 0
  traceId : Int := 0
  compressionInfo : Option RpcCompressionInfo := none
  deriving DecidableEq, Repr

/-- The protobuf encoding of RPC packets. -/
structure RpcCodec where
  encode : RpcPacket → Bytes
  decode : Bytes → Option RpcPacket
  decode_encode : ∀ packet, decode (encode packet) = some packet

def RpcCodec.encodedLen (codec : RpcCodec) (packet : RpcPacket) : Nat :=
  (codec.encode packet).length

inductive RpcError where
  | malformatRpcPacket (message : String)
  deriving DecidableEq, Repr

/-! ## The merger -/

structure PacketMerger where
  firstPiece : Option RpcPacket
  pieces : List RpcPacket
  lastUpdated : Nat
  deriving DecidableEq

namespace PacketMerger

variable (merger : PacketMerger)

def new (now : Nat) : PacketMerger := ⟨none, [], now⟩

/-- `try_merge_pieces`: a slot that was not filled has no pieces in total. -/
def tryMergePieces : Option RpcPacket :=
  if merger.firstPiece.isNone || merger.pieces.isEmpty then none
  else if merger.pieces.any (·.totalPieces == 0) then none
  else
    merger.pieces.head?.map fun template =>
      { template with totalPieces := 1, pieceIdx := 0, body := merger.pieces.flatMap (·.body) }

/-- `Vec::resize`. -/
def resize (pieces : List RpcPacket) (count : Nat) (filler : RpcPacket) : List RpcPacket :=
  (pieces ++ List.replicate (count - pieces.length) filler).take count

/-- The packet belongs to another transaction than the pieces at hand. -/
def startsAnew (packet : RpcPacket) : Bool :=
  match merger.firstPiece with
  | none => true
  | some first =>
    first.transactionId != packet.transactionId || first.fromPeer != packet.fromPeer

/-- The slots once the packet is in its place. -/
def store (packet : RpcPacket) (now : Nat) : PacketMerger :=
  let pieces := if merger.startsAnew packet then [] else merger.pieces
  { firstPiece := if merger.startsAnew packet then some packet else merger.firstPiece
    pieces := (resize pieces packet.totalPieces {}).set packet.pieceIdx packet
    lastUpdated := now }

/-- `feed`. -/
def feed (packet : RpcPacket) (now : Nat) : Except RpcError (Option RpcPacket) × PacketMerger :=
  let totalPieces := packet.totalPieces
  if totalPieces = 0 ∧ packet.pieceIdx = 0 then (.ok (some packet), merger)
  else if packet.pieceIdx = 0 ∧ packet.descriptor = none then
    (.error (.malformatRpcPacket "descriptor is missing"), merger)
  else if 32 * 1024 < totalPieces ∨ totalPieces = 0 then
    (.error (.malformatRpcPacket s!"total_pieces is invalid: {totalPieces}"), merger)
  else if totalPieces ≤ packet.pieceIdx then
    (.error (.malformatRpcPacket "piece_idx >= total_pieces"), merger)
  else
    let merger := merger.store packet now
    (.ok merger.tryMergePieces, merger)

end PacketMerger

/-! ## Building the pieces -/

structure BuildRpcPacketArgs where
  fromPeer : PeerId
  toPeer : PeerId
  rpcDesc : RpcDescriptor
  transactionId : Int
  isReq : Bool
  content : Bytes
  traceId : Int
  compressionInfo : RpcCompressionInfo

def rpcPacketUdpPayloadBudget : Nat := 1300

/-- The UDP tunnel header, the peer manager header and the tail of an encrypted payload. -/
def udpRpcTunnelOverhead : Nat := 8 + 16 + 28

def maxRpcPacketEncodedLenForUdp : Nat := rpcPacketUdpPayloadBudget - udpRpcTunnelOverhead

/-- `build_rpc_piece`. -/
def buildRpcPiece (args : BuildRpcPacketArgs) (totalPieces pieceIdx : Nat) (body : Bytes) :
    RpcPacket where
  fromPeer := args.fromPeer
  toPeer := args.toPeer
  descriptor :=
    if pieceIdx = 0 ∨ args.compressionInfo.algo = compressionNone then some args.rpcDesc else none
  isRequest := args.isReq
  totalPieces := totalPieces
  pieceIdx := pieceIdx
  transactionId := args.transactionId
  body := body
  traceId := args.traceId
  compressionInfo := if pieceIdx = 0 then some args.compressionInfo else none

/-- The length of a length in a protobuf message, seven bits to a byte. -/
def lengthDelimiterLen (length : Nat) : Nat := Nat.log 128 length + 1

/-- `pick_piece_len_for_budget`. -/
def pickPieceLenForBudget (baseEncodedLenWithoutBody remaining maxEncodedLen : Nat) : Nat :=
  if remaining = 0 then 0
  else if maxEncodedLen < baseEncodedLenWithoutBody + 3 then 1
  else
    let budget := maxEncodedLen - baseEncodedLenWithoutBody
    let reservedForBodyHeader := 1 + lengthDelimiterLen budget
    max (min remaining (budget - reservedForBodyHeader)) 1

/-- What is left yields a piece, and no more than what is left. -/
theorem pickPieceLenForBudget_bounds (base maxLen : Nat) {remaining : Nat} (left : 0 < remaining) :
    0 < pickPieceLenForBudget base remaining maxLen ∧
      pickPieceLenForBudget base remaining maxLen ≤ remaining := by
  unfold pickPieceLenForBudget
  rw [if_neg (by omega)]
  split
  · omega
  · dsimp only
    omega

/-- The loop of `split_rpc_content_for_udp_budget`, from an offset on; the first piece has a length
of its own. -/
def splitFrom (firstPieceBaseLen otherPieceBaseLen maxEncodedLen total offset : Nat) :
    List (Nat × Nat) :=
  if inside : offset < total then
    let pieceLen := pickPieceLenForBudget firstPieceBaseLen (total - offset) maxEncodedLen
    have := pickPieceLenForBudget_bounds firstPieceBaseLen maxEncodedLen (Nat.sub_pos_of_lt inside)
    (offset, pieceLen) ::
      splitFrom otherPieceBaseLen otherPieceBaseLen maxEncodedLen total (offset + pieceLen)
  else []
termination_by total - offset

/-- `split_rpc_content_for_udp_budget`. -/
def splitRpcContentForUdpBudget (codec : RpcCodec) (args : BuildRpcPacketArgs) :
    List (Nat × Nat) :=
  if args.content = [] then [(0, 0)]
  else
    let maxEncodedLen := max maxRpcPacketEncodedLenForUdp 1
    let firstPieceBaseLen := codec.encodedLen (buildRpcPiece args (2 ^ 32 - 1) 0 [])
    let otherPieceBaseLen := codec.encodedLen (buildRpcPiece args (2 ^ 32 - 1) (2 ^ 32 - 1) [])
    splitFrom firstPieceBaseLen otherPieceBaseLen maxEncodedLen args.content.length 0

/-- The RPC packets of `build_rpc_packet`, with 32-bit counts. -/
def buildRpcPieces (codec : RpcCodec) (args : BuildRpcPacketArgs) : List RpcPacket :=
  let pieces := splitRpcContentForUdpBudget codec args
  pieces.mapIdx fun pieceIdx piece =>
    buildRpcPiece args (pieces.length % 2 ^ 32) (pieceIdx % 2 ^ 32) (slice args.content piece)

/-- `fill_peer_manager_hdr` on a new packet. -/
def fillPeerManagerHdr (fromPeerId toPeerId : PeerId) (packetType : PacketType) (payload : Bytes) :
    ZCPacket where
  header := {
    fromPeerId := fromPeerId
    toPeerId := toPeerId
    packetType := packetType.code
    flags := 0
    forwardCounter := 1
    reserved := 0
    len := payload.length % 2 ^ 32 }
  payload := payload

/-- `build_rpc_packet`. -/
def buildRpcPacket (codec : RpcCodec) (args : BuildRpcPacketArgs) : List ZCPacket :=
  (buildRpcPieces codec args).map fun piece =>
    fillPeerManagerHdr args.fromPeer args.toPeer (if args.isReq then .rpcReq else .rpcResp)
      (codec.encode piece)

end EasyTier.Rpc
