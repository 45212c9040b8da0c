import EasyTier.Data.Codec
import EasyTier.Rpc.Packet

/-! # Pieces merge to the content

The pieces of one content, fed to a new merger in any order and as often as one likes, are put
together as soon as the last of them has arrived.
-/

namespace EasyTier.Rpc

open Data Packet Codec PacketMerger

/-! ## The pieces tile the content -/

theorem tiles_splitFrom (firstBase otherBase maxLen total offset : Nat) (inside : offset ≤ total) :
    Tiles offset (splitFrom firstBase otherBase maxLen total offset) total := by
  fun_induction splitFrom firstBase otherBase maxLen total offset with
  | case1 firstBase offset left pieceLen bounds ih =>
    exact .cons (ih (by omega))
  | case2 firstBase offset finished =>
    obtain rfl : offset = total := by omega
    exact .nil

variable (codec : RpcCodec) (args : BuildRpcPacketArgs)

theorem tiles_splitRpcContent :
    Tiles 0 (splitRpcContentForUdpBudget codec args) args.content.length := by
  unfold splitRpcContentForUdpBudget
  split
  case isTrue empty =>
    rw [empty]
    exact .cons .nil
  case isFalse => exact tiles_splitFrom _ _ _ _ 0 (Nat.zero_le _)

theorem splitRpcContent_ne_nil : splitRpcContentForUdpBudget codec args ≠ [] := by
  unfold splitRpcContentForUdpBudget
  split
  case isTrue => simp
  case isFalse stated =>
    rw [splitFrom, dif_pos (List.length_pos_iff.mpr stated)]
    simp

/-- How many pieces the content is split into. -/
def pieceCount : Nat := (splitRpcContentForUdpBudget codec args).length

theorem pieceCount_pos : 0 < pieceCount codec args :=
  List.length_pos_iff.mpr (splitRpcContent_ne_nil codec args)

/-- The piece with an index. -/
def pieceAt (index : Nat) : RpcPacket :=
  buildRpcPiece args (pieceCount codec args) index
    (slice args.content ((splitRpcContentForUdpBudget codec args).getD index (0, 0)))

variable {codec args}

theorem buildRpcPieces_eq (few : pieceCount codec args ≤ 32768) :
    buildRpcPieces codec args =
      (List.range (pieceCount codec args)).map (pieceAt codec args) := by
  refine List.ext_getElem (by simp [buildRpcPieces, pieceCount]) ?_
  intro index inside _
  have bound : index < pieceCount codec args := by
    simpa [buildRpcPieces, pieceCount] using inside
  have small : index % 2 ^ 32 = index := Nat.mod_eq_of_lt (by omega)
  have smallCount : (splitRpcContentForUdpBudget codec args).length % 2 ^ 32 =
      pieceCount codec args := Nat.mod_eq_of_lt (by unfold pieceCount at few; omega)
  unfold pieceCount at bound
  simp only [buildRpcPieces, List.getElem_mapIdx, List.getElem_map, List.getElem_range, pieceAt,
    small, smallCount, List.getD_eq_getElem?_getD, List.getElem?_eq_getElem bound, Option.getD_some]

theorem mem_buildRpcPieces (few : pieceCount codec args ≤ 32768) {packet : RpcPacket} :
    packet ∈ buildRpcPieces codec args ↔
      ∃ index < pieceCount codec args, pieceAt codec args index = packet := by
  simp [buildRpcPieces_eq few]

/-- The bodies of all pieces are the content. -/
theorem flatMap_body_pieces :
    ((List.range (pieceCount codec args)).map (pieceAt codec args)).flatMap (·.body) =
      args.content := by
  calc ((List.range (pieceCount codec args)).map (pieceAt codec args)).flatMap (·.body)
      = ((List.range (pieceCount codec args)).map fun index =>
          (splitRpcContentForUdpBudget codec args).getD index (0, 0)).flatMap
            (slice args.content) := by
        rw [List.flatMap_map, List.flatMap_map]
        rfl
    _ = (splitRpcContentForUdpBudget codec args).flatMap (slice args.content) := by
        rw [pieceCount, map_getD_range]
    _ = args.content := by
        rw [(tiles_splitRpcContent codec args).flatMap_slice]
        simp

/-! ## Collecting -/

variable (codec args) in
/-- The slots of a merger that has got some of the pieces. -/
def slots (fed : List RpcPacket) : List RpcPacket :=
  (List.range (pieceCount codec args)).map fun index =>
    if pieceAt codec args index ∈ fed then pieceAt codec args index else {}

variable (codec args) in
/-- The merger holds the pieces it was fed, and nothing else. -/
def Collects (merger : PacketMerger) (fed : List RpcPacket) : Prop :=
  (merger.firstPiece = none ∧ fed = []) ∨
    ∃ first, merger.firstPiece = some first ∧ first.transactionId = args.transactionId ∧
      first.fromPeer = args.fromPeer ∧ merger.pieces = slots codec args fed

/-- The packet the pieces merge to. -/
def mergedPacket (args : BuildRpcPacketArgs) : RpcPacket where
  fromPeer := args.fromPeer
  toPeer := args.toPeer
  transactionId := args.transactionId
  descriptor := some args.rpcDesc
  body := args.content
  isRequest := args.isReq
  totalPieces := 1
  pieceIdx := 0
  traceId := args.traceId
  compressionInfo := some args.compressionInfo

/-- Writing a piece into its slot. -/
theorem slots_set (fed : List RpcPacket) (index : Nat) :
    (slots codec args fed).set index (pieceAt codec args index) =
      slots codec args (pieceAt codec args index :: fed) := by
  rw [slots, set_map_range, slots]
  congr 1
  funext place
  by_cases same : place = index
  · subst same
    simp
  · have apart : pieceAt codec args place ≠ pieceAt codec args index := by
      intro equal
      exact same (congrArg RpcPacket.pieceIdx equal)
    simp [Function.update_of_ne same, apart]

/-- Slots of the right number stay as they are. -/
theorem resize_slots (fed : List RpcPacket) :
    resize (slots codec args fed) (pieceCount codec args) {} =
      slots codec args fed := by
  have count : (slots codec args fed).length = pieceCount codec args := by simp [slots]
  rw [resize, count, Nat.sub_self, List.replicate_zero, List.append_nil, ← count,
    List.take_length]

namespace Collects

variable {merger : PacketMerger} {fed : List RpcPacket}

/-- A further piece goes into its slot. -/
theorem store (collects : Collects codec args merger fed) (index now : Nat) :
    ∃ first, (merger.store (pieceAt codec args index) now).firstPiece = some first ∧
      first.transactionId = args.transactionId ∧ first.fromPeer = args.fromPeer ∧
      (merger.store (pieceAt codec args index) now).pieces =
        slots codec args (pieceAt codec args index :: fed) := by
  rcases collects with ⟨fresh, rfl⟩ | ⟨first, stored, transaction, fromPeer, pieces⟩
  · have anew : merger.startsAnew (pieceAt codec args index) = true := by
      simp [startsAnew, fresh]
    refine ⟨pieceAt codec args index, ?_, rfl, rfl, ?_⟩
    · simp [store, anew]
    · rw [← slots_set]
      simp [store, anew, resize, slots]
      rfl
  · have continues : merger.startsAnew (pieceAt codec args index) = false := by
      simp [startsAnew, stored, transaction, fromPeer, pieceAt, buildRpcPiece]
    refine ⟨first, ?_, transaction, fromPeer, ?_⟩
    · simp [PacketMerger.store, continues, stored]
    · rw [← slots_set, ← resize_slots]
      simp only [PacketMerger.store, continues, Bool.false_eq_true, if_false, pieces]
      rfl

end Collects

theorem slots_of_complete
    (complete : ∀ index < pieceCount codec args, pieceAt codec args index ∈ fed) :
    slots codec args fed = (List.range (pieceCount codec args)).map (pieceAt codec args) := by
  refine List.map_congr_left ?_
  intro index member
  rw [if_pos (complete index (List.mem_range.mp member))]

/-- A slot that was not filled shows by its total. -/
theorem any_slots_iff : (slots codec args fed).any (·.totalPieces == 0) = true ↔
      ¬ ∀ index < pieceCount codec args, pieceAt codec args index ∈ fed := by
  have filled : ∀ index, (pieceAt codec args index).totalPieces ≠ 0 := fun _ =>
    (pieceCount_pos codec args).ne'
  simp only [slots, List.any_map, List.any_eq_true, List.mem_range, Function.comp_apply,
    beq_iff_eq, not_forall, exists_prop]
  refine exists_congr fun index => and_congr_right fun _ => ?_
  split
  case isTrue fedAlready => exact iff_of_false (filled index) (not_not.mpr fedAlready)
  case isFalse missing => exact iff_of_true rfl missing

/-- Slots merge exactly when all of them are filled. -/
theorem tryMergePieces_slots {merger : PacketMerger} {first : RpcPacket}
    (stored : merger.firstPiece = some first) (pieces : merger.pieces = slots codec args fed) :
    merger.tryMergePieces =
      if ∀ index < pieceCount codec args, pieceAt codec args index ∈ fed then
        some (mergedPacket args) else none := by
  have some_pieces : merger.pieces.isEmpty = false := by
    rw [pieces, slots, List.isEmpty_eq_false_iff]
    simpa using (pieceCount_pos codec args).ne'
  rw [tryMergePieces, stored, some_pieces, pieces]
  by_cases complete : ∀ index < pieceCount codec args, pieceAt codec args index ∈ fed
  · have filled : (slots codec args fed).any (·.totalPieces == 0) = false :=
      Bool.eq_false_iff.mpr fun unfilled => any_slots_iff.mp unfilled complete
    have head : (slots codec args fed).head? = some (pieceAt codec args 0) := by
      rw [slots_of_complete complete, List.head?_map, List.head?_range,
        if_neg (pieceCount_pos codec args).ne']
      rfl
    rw [if_pos complete, filled, head, slots_of_complete complete, flatMap_body_pieces]
    simp [mergedPacket, pieceAt, buildRpcPiece]
  · rw [if_neg complete, any_slots_iff.mpr complete]
    rfl

/-! ## Feeding -/

/-- A piece of the content is accepted. -/
theorem feed_pieceAt (few : pieceCount codec args ≤ 32768) {index : Nat}
    (inside : index < pieceCount codec args) (merger : PacketMerger) (now : Nat) :
    merger.feed (pieceAt codec args index) now =
      (.ok (merger.store (pieceAt codec args index) now).tryMergePieces,
        merger.store (pieceAt codec args index) now) := by
  have total : (pieceAt codec args index).totalPieces = pieceCount codec args := rfl
  have place : (pieceAt codec args index).pieceIdx = index := rfl
  have described : ¬ (index = 0 ∧ (pieceAt codec args index).descriptor = none) := by
    rintro ⟨rfl, missing⟩
    simp [pieceAt, buildRpcPiece] at missing
  unfold feed
  rw [total, place, if_neg (by omega), if_neg described, if_neg (by omega), if_neg (by omega)]

/-- One more piece: the merger answers according to what it has got by then. -/
theorem Collects.feed (few : pieceCount codec args ≤ 32768) {merger : PacketMerger}
    (collects : Collects codec args merger fed) {index : Nat}
    (inside : index < pieceCount codec args) (now : Nat) :
    (merger.feed (pieceAt codec args index) now).1 =
        .ok (if ∀ other < pieceCount codec args,
            pieceAt codec args other ∈ pieceAt codec args index :: fed then
          some (mergedPacket args) else none) ∧
      Collects codec args (merger.feed (pieceAt codec args index) now).2
        (pieceAt codec args index :: fed) := by
  obtain ⟨first, stored, transaction, fromPeer, pieces⟩ := collects.store index now
  rw [feed_pieceAt few inside]
  refine ⟨?_, .inr ⟨first, stored, transaction, fromPeer, pieces⟩⟩
  exact congrArg Except.ok (tryMergePieces_slots stored pieces)

/-- The merger after packets that were fed at their moments, the latest first in the list. -/
def PacketMerger.after (merger : PacketMerger) : List (RpcPacket × Nat) → PacketMerger
  | [] => merger
  | (packet, now) :: earlier => ((merger.after earlier).feed packet now).2

theorem collects_after (few : pieceCount codec args ≤ 32768) (start : Nat)
    (fed : List (RpcPacket × Nat))
    (ofContent : ∀ packet ∈ fed.map Prod.fst, packet ∈ buildRpcPieces codec args) :
    Collects codec args ((new start).after fed) (fed.map Prod.fst) := by
  induction fed with
  | nil => exact .inl ⟨rfl, rfl⟩
  | cons latest earlier ih =>
    obtain ⟨packet, now⟩ := latest
    obtain ⟨index, inside, rfl⟩ :=
      (mem_buildRpcPieces few).mp (ofContent packet (List.mem_cons_self ..))
    have collects := ih fun packet member => ofContent packet (List.mem_cons_of_mem _ member)
    exact (collects.feed few inside now).2

variable (codec args) in
/-- What the receiver decodes from the packets of `build_rpc_packet`. -/
def decodedPieces : List RpcPacket :=
  (buildRpcPacket codec args).filterMap fun sent => codec.decode sent.payload

theorem decodedPieces_eq : decodedPieces codec args = buildRpcPieces codec args := by
  simp [decodedPieces, buildRpcPacket, fillPeerManagerHdr, codec.decode_encode]

theorem length_buildRpcPacket : (buildRpcPacket codec args).length = pieceCount codec args := by
  simp [buildRpcPacket, buildRpcPieces, pieceCount]

/-- Every built packet is decoded. The decoded packets, fed in any order and any number of times,
are accepted; the answer is nothing as long as one is missing and then the packet with the whole
content. -/
theorem built_pieces_merge (few : (buildRpcPacket codec args).length ≤ 32768) :
    0 < (buildRpcPacket codec args).length ∧
    (decodedPieces codec args).length = (buildRpcPacket codec args).length ∧
    ∀ (start : Nat) (earlier : List (RpcPacket × Nat)) (packet : RpcPacket) (now : Nat),
      (∀ piece ∈ packet :: earlier.map Prod.fst, piece ∈ decodedPieces codec args) →
      (((PacketMerger.new start).after earlier).feed packet now).1 =
        .ok (if ∀ piece ∈ decodedPieces codec args, piece ∈ packet :: earlier.map Prod.fst then
          some (mergedPacket args) else none) := by
  rw [length_buildRpcPacket] at few
  simp only [length_buildRpcPacket, decodedPieces_eq]
  refine ⟨pieceCount_pos codec args, by simp [buildRpcPieces_eq few], ?_⟩
  intro start earlier packet now built
  have collects := collects_after few start earlier fun piece member =>
    built piece (List.mem_cons_of_mem _ member)
  obtain ⟨index, inside, rfl⟩ := (mem_buildRpcPieces few).mp (built packet (List.mem_cons_self ..))
  rw [(collects.feed few inside now).1, buildRpcPieces_eq few]
  simp only [List.forall_mem_map, List.mem_range]

/-! ## A content in pieces -/

def descriptorCodec : Codec RpcDescriptor :=
  (text.pair (text.pair (text.pair varint))).via
    (fun descriptor => (descriptor.domainName, descriptor.protoName, descriptor.serviceName,
      descriptor.methodIndex))
    (fun parts => ⟨parts.1, parts.2.1, parts.2.2.1, parts.2.2.2⟩) fun _ => rfl

def compressionCodec : Codec RpcCompressionInfo :=
  (int.pair int).via (fun info => (info.algo, info.acceptedAlgo))
    (fun parts => ⟨parts.1, parts.2⟩) fun _ => rfl

/-- The fields of a packet one after the other: numbers as varints, bytes and texts after their
length, as prost writes them, but without field keys. -/
def fieldsCodec : Codec RpcPacket :=
  ((varint.pair (varint.pair (int.pair descriptorCodec.option))).pair
    (byte.list.pair (bool.pair (varint.pair (varint.pair
      (int.pair compressionCodec.option)))))).via
    (fun packet => ((packet.fromPeer, packet.toPeer, packet.transactionId, packet.descriptor),
      packet.body, packet.isRequest, packet.totalPieces, packet.pieceIdx, packet.traceId,
      packet.compressionInfo))
    (fun ((fromPeer, toPeer, transactionId, descriptor), body, isRequest, totalPieces, pieceIdx,
        traceId, compressionInfo) =>
      { fromPeer, toPeer, transactionId, descriptor, body, isRequest, totalPieces, pieceIdx,
        traceId, compressionInfo })
    fun _ => rfl

def fieldsRpcCodec : RpcCodec where
  encode := fieldsCodec.write
  decode := fieldsCodec.decode
  decode_encode := fieldsCodec.decode_write

/-- A request of 3000 bytes. -/
def greetingArgs : BuildRpcPacketArgs where
  fromPeer := 1
  toPeer := 2
  rpcDesc := ⟨"net", "greeting", "Greeting", 1⟩
  transactionId := 7
  isReq := true
  content := List.replicate 3000 65
  traceId := 9
  compressionInfo := ⟨2, 2⟩

theorem length_greeting : (buildRpcPacket fieldsRpcCodec greetingArgs).length = 3 := by
  have firstLen : fieldsRpcCodec.encodedLen (buildRpcPiece greetingArgs (2 ^ 32 - 1) 0 []) =
      43 := by
    decide +kernel
  have otherLen : fieldsRpcCodec.encodedLen
      (buildRpcPiece greetingArgs (2 ^ 32 - 1) (2 ^ 32 - 1) []) = 20 := by
    decide +kernel
  have total : greetingArgs.content.length = 3000 := List.length_replicate
  have stated : greetingArgs.content ≠ [] := List.ne_nil_of_length_pos (total ▸ by decide)
  have first : Nat.log 128 1205 = 1 := by decide
  have later : Nat.log 128 1228 = 1 := by decide
  rw [length_buildRpcPacket, pieceCount, splitRpcContentForUdpBudget, if_neg stated, firstLen,
    otherLen, total]
  simp [splitFrom, pickPieceLenForBudget, lengthDelimiterLen, maxRpcPacketEncodedLenForUdp,
    rpcPacketUdpPayloadBudget, udpRpcTunnelOverhead, first, later]

/-- A greeting takes three packets. One of them alone is not enough; all of them, and any one once
more, merge to the greeting. -/
theorem greeting_merges :
    (buildRpcPacket fieldsRpcCodec greetingArgs).length = 3 ∧
    ∀ piece ∈ decodedPieces fieldsRpcCodec greetingArgs,
      ((PacketMerger.new 0).feed piece 1).1 = .ok none ∧
      (((PacketMerger.new 0).after
          ((decodedPieces fieldsRpcCodec greetingArgs).map
            fun piece => (piece, 1))).feed piece 2).1 =
        .ok (some (mergedPacket greetingArgs)) := by
  have few : (buildRpcPacket fieldsRpcCodec greetingArgs).length ≤ 32768 :=
    length_greeting.trans_le (by decide)
  refine ⟨length_greeting, fun piece member => ?_⟩
  obtain ⟨_, _, merges⟩ := built_pieces_merge few
  have alone := merges 0 [] piece 1 (by simpa using member)
  constructor
  · refine alone.trans (congrArg Except.ok (if_neg fun complete => ?_))
    rw [length_buildRpcPacket] at few
    have both : ∀ index < 2, pieceAt fieldsRpcCodec greetingArgs index = piece := by
      intro index inside
      refine List.mem_singleton.mp (complete _ ?_)
      rw [decodedPieces_eq, mem_buildRpcPieces few, ← length_buildRpcPacket, length_greeting]
      exact ⟨index, by omega, rfl⟩
    have same := (both 0 (by decide)).trans (both 1 (by decide)).symm
    cases congrArg RpcPacket.pieceIdx same
  · have fed : ((decodedPieces fieldsRpcCodec greetingArgs).map fun piece => (piece, 1)).map
        Prod.fst = decodedPieces fieldsRpcCodec greetingArgs := by
      rw [List.map_map]
      exact List.map_id _
    rw [merges 0 _ piece 2 (by simpa [fed] using member), fed, if_pos]
    exact fun _ => List.mem_cons_of_mem _

end EasyTier.Rpc
