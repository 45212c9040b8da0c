import EasyTier.Gateway.Gathering

/-! # Fragments lead back to the payload

The packets `composeIpv4Packet` hands out, taken by a reassembler in any order and any number of
times, give the payload when the last of them has come and nothing before.
-/

namespace EasyTier.Gateway

open Data Packet ComposeIpv4PacketArgs Ipv4 IpFragment Ipv4.Header

/-! ## The packets composed -/

namespace ComposeIpv4PacketArgs

variable (args : ComposeIpv4PacketArgs)

/-- Where the payload is cut. -/
def pieces : List (Nat × Nat) := chunks args.payloadMtu args.payloadLen 0

/-- The packet of one piece of the payload. -/
def packetOf (payload : Bytes) (piece : Nat × Nat) : Bytes :=
  (args.header piece.1 piece.2 (piece.1 / args.payloadMtu)).emit ++ slice payload piece

end ComposeIpv4PacketArgs

section Compose

variable {args : ComposeIpv4PacketArgs} {payload rest : Bytes}

/-- The bytes behind the header of a piece, as long as the payload is intact from there on. -/
theorem slice_behind_header {buf : Bytes} {place length : Nat}
    (intact : buf.drop (place + headerLength) = payload.drop place ++ rest)
    (inside : place + length ≤ payload.length) :
    (slice buf (place, length + headerLength)).drop headerLength =
      slice payload (place, length) := by
  rw [slice, List.drop_take, List.drop_drop, intact, Nat.add_sub_cancel, slice,
    List.take_append_of_le_length]
  rw [List.length_drop]
  omega

/-- Writing a packet leaves the payload behind it intact. -/
theorem intact_behind_packet {buf packet : Bytes} {place length : Nat}
    (intact : buf.drop (place + headerLength) = payload.drop place ++ rest)
    (inside : place + length ≤ payload.length) (started : place ≤ buf.length)
    (written : packet.length = length + headerLength) :
    (buf.take place ++ (packet ++ buf.drop (place + (length + headerLength)))).drop
      (place + length + headerLength) = payload.drop (place + length) ++ rest := by
  have untouched : buf.drop (place + (length + headerLength)) =
      payload.drop (place + length) ++ rest := by
    have moved := congrArg (List.drop length) intact
    rw [List.drop_drop, List.drop_append_of_le_length (by rw [List.length_drop]; omega),
      List.drop_drop] at moved
    rw [← moved]
    congr 1
    omega
  rw [← List.append_assoc, List.drop_append_of_le_length, untouched]
  · rw [List.drop_eq_nil_of_le, List.nil_append]
    simp only [List.length_append, List.length_take]
    omega
  · simp only [List.length_append, List.length_take]
    omega

section

variable {State Error : Type} (cb : State → Bytes → Except Error State)
    (positive : 0 < args.payloadMtu) (whole : payload.length = args.payloadLen)
include positive whole

theorem composeLoop_eq
    (buf : Bytes) (place curPiece : Nat) (state : State)
    (counted : args.payloadLen ≤ place ∨ place = curPiece * args.payloadMtu)
    (intact : buf.drop (place + headerLength) = payload.drop place ++ rest) :
    composeLoop args cb buf place place curPiece state =
      some (((chunks args.payloadMtu args.payloadLen place).map (args.packetOf payload)).foldlM
        cb state) := by
  induction remaining : args.payloadLen - place using Nat.strongRecOn
    generalizing buf place curPiece state with
  | ind remaining ih =>
  by_cases more : place < args.payloadLen
  · have counts : place / args.payloadMtu = curPiece := by
      rw [counted.resolve_left (Nat.not_le.mpr more), Nat.mul_div_cancel _ positive]
    obtain ⟨length, next⟩ : ∃ length,
        min (place + args.payloadMtu) args.payloadLen = place + length :=
      ⟨min (place + args.payloadMtu) args.payloadLen - place, by omega⟩
    have inside : place + length ≤ payload.length := by omega
    have filled : buf.length - (place + headerLength) =
        payload.length - place + rest.length := by
      simpa only [List.length_drop, List.length_append] using congrArg List.length intact
    rw [composeLoop, dif_pos ⟨positive, more⟩, chunks, dif_pos ⟨positive, more⟩]
    simp only [next, Nat.add_sub_cancel_left]
    rw [if_neg (by omega), slice_behind_header intact inside, List.map_cons, List.foldlM_cons]
    have same : (args.header place length curPiece).emit ++ slice payload (place, length) =
        args.packetOf payload (place, length) := by
      rw [packetOf, counts]
    rw [same]
    cases handed : cb state (args.packetOf payload (place, length)) with
    | error error => rfl
    | ok state =>
      refine ih _ (by omega) _ _ _ _ ?_ ?_ rfl
      · rcases Nat.le_total (place + args.payloadMtu) args.payloadLen with full | short
        · rw [Nat.add_mul, Nat.one_mul]
          omega
        · omega
      · refine intact_behind_packet intact inside (by omega) ?_
        simp only [packetOf, List.length_append, length_emit, slice,
          List.length_take, List.length_drop]
        omega
  · rw [composeLoop, dif_neg (fun both => more both.2), chunks_of_ge (by omega)]
    rfl

/-- The callback gets the packets of the pieces, in their order. -/
theorem composeIpv4Packet_eq {spare : Bytes}
    (buf : args.buf = spare ++ (payload ++ rest)) (spareLength : spare.length = headerLength)
    (state : State) :
    composeIpv4Packet args cb state =
      some ((args.pieces.map (args.packetOf payload)).foldlM cb state) := by
  rw [composeIpv4Packet, if_neg (by omega)]
  have intact : args.buf.drop (0 + headerLength) = payload.drop 0 ++ rest := by
    rw [buf, Nat.zero_add, ← spareLength, List.drop_left, List.drop_zero]
  exact composeLoop_eq cb positive whole _ 0 0 state (.inr (Nat.zero_mul _).symm) intact

end

theorem foldlM_collect (packets handed : List Bytes) :
    packets.foldlM collect handed = .ok (handed ++ packets) := by
  induction packets generalizing handed with
  | nil => rw [List.foldlM_nil, List.append_nil]; rfl
  | cons packet packets ih =>
    exact (ih (handed ++ [packet])).trans (by rw [List.append_assoc, List.singleton_append])

end Compose

/-! ## The packets of a payload -/

/-- The payload has the length announced, which one packet can count, and fragments of the size
asked for can say where they start. -/
structure Fits (args : ComposeIpv4PacketArgs) (payload : Bytes) : Prop where
  whole : payload.length = args.payloadLen
  nonempty : 1 ≤ payload.length
  bounded : payload.length ≤ 65515
  positive : 0 < args.payloadMtu
  aligned : 8 ∣ args.payloadMtu

variable {packet : Ipv4Packet} {arrivals : List (Ipv4Packet × Nat)}

namespace Fits

variable {args : ComposeIpv4PacketArgs} {payload : Bytes} {piece : Nat × Nat}

section

variable (fits : Fits args payload)
include fits

theorem cut : Cut payload args.pieces where
  tiles := fits.whole ▸ tiles_chunks fits.positive (Nat.zero_le _)
  positive _ member := (bounds_of_mem_chunks member).1
  nonempty := fits.nonempty
  bounded := Nat.lt_of_le_of_lt fits.bounded (by decide)

theorem lt_totalPieces_iff (count : Nat) :
    count < args.totalPieces ↔ count * args.payloadMtu < payload.length := by
  have positive := fits.positive
  rw [totalPieces, ← fits.whole, Nat.lt_iff_add_one_le,
    Nat.le_div_iff_mul_le positive, Nat.add_mul, Nat.one_mul]
  omega

section

variable (member : piece ∈ args.pieces)
include member

omit fits in
/-- Pieces are counted from the start of the payload. -/
theorem index_mul :
    piece.1 / args.payloadMtu * args.payloadMtu = piece.1 :=
  Nat.div_mul_cancel (dvd_of_mem_chunks member (Nat.dvd_zero _))

theorem moreFrags_iff :
    (args.header piece.1 piece.2 (piece.1 / args.payloadMtu)).moreFrags = true ↔
      piece.1 + piece.2 ≠ payload.length := by
  have counted := index_mul member
  have ends := (bounds_of_mem_chunks member).2
  have long := (bounds_of_mem_chunks member).1
  have here := fits.lt_totalPieces_iff (piece.1 / args.payloadMtu)
  have next := fits.lt_totalPieces_iff (piece.1 / args.payloadMtu + 1)
  rw [Nat.add_mul, Nat.one_mul, counted] at next
  rw [← fits.whole] at ends
  simp only [header, Bool.and_eq_true, decide_eq_true_eq]
  generalize piece.1 / args.payloadMtu = index at *
  omega

theorem fragOffset_eq :
    (args.header piece.1 piece.2 (piece.1 / args.payloadMtu)).fragOffset.toNat = piece.1 := by
  have inside := (fits.cut.tiles.bounds member).2
  have bounded := fits.cut.bounded
  rw [header]
  split
  case isTrue => rw [BitVec.toNat_ofNat, Nat.mod_eq_of_lt (by omega)]
  case isFalse single =>
    -- A payload in one piece starts with it.
    have short := mt (fits.lt_totalPieces_iff 1).mpr single
    have long := (bounds_of_mem_chunks member).1
    have first : piece.1 / args.payloadMtu = 0 := Nat.div_eq_of_lt (by omega)
    rw [← index_mul member, first, Nat.zero_mul]
    rfl

theorem length_slice :
    (slice payload piece).length = piece.2 := fits.cut.length_slice member

theorem totalLen_packetOf :
    totalLen (args.packetOf payload piece) = headerLength + piece.2 := by
  have inside := (fits.cut.tiles.bounds member).2
  have bounded := fits.bounded
  rw [packetOf, totalLen_emit, header,
    BitVec.toNat_ofNat, headerLength, Nat.mod_eq_of_lt (by omega), Nat.add_comm]

theorem length_packetOf :
    (args.packetOf payload piece).length = headerLength + piece.2 := by
  rw [packetOf, List.length_append, length_emit, fits.length_slice member]

theorem checked_packetOf :
    Checked (args.packetOf payload piece) := by
  have header : headerLen (args.packetOf payload piece) = headerLength :=
    headerLen_emit _ _
  rw [Checked, header, fits.totalLen_packetOf member, fits.length_packetOf member]
  omega

theorem payload_packetOf :
    Ipv4.payload (args.packetOf payload piece) = slice payload piece := by
  refine payload_emit _ _ ?_
  rw [← totalLen_emit _ (slice payload piece), fits.length_slice member]
  exact fits.totalLen_packetOf member

theorem ofPacket_packetOf
    (bytes : packet.bytes = args.packetOf payload piece) :
    ofPacket packet = fragmentOf payload piece := by
  have offset : Ipv4.fragOffset (args.packetOf payload piece) = piece.1 := by
    have units : 8 ∣ piece.1 :=
      Nat.dvd_trans fits.aligned (dvd_of_mem_chunks member (Nat.dvd_zero _))
    rw [packetOf, fragOffset_emit, fits.fragOffset_eq member, Nat.div_mul_cancel units]
  rw [ofPacket, bytes, offset, fits.payload_packetOf member, fragmentOf]

end

omit fits in
theorem key_packetOf (bytes : packet.bytes = args.packetOf payload piece) :
    packet.key = args.key := by
  simp [Ipv4Packet.key, bytes, packetOf, header, key]

theorem isLastFragment_packetOf (member : piece ∈ args.pieces)
    (bytes : packet.bytes = args.packetOf payload piece) :
    IpReassembler.isLastFragment packet = true ↔ piece.1 + piece.2 = payload.length := by
  rw [IpReassembler.isLastFragment, bytes, packetOf,
    moreFrags_emit, Bool.not_eq_true', ← Bool.not_eq_true, fits.moreFrags_iff member,
    not_not]

/-- Different pieces travel in different packets. -/
theorem packetOf_inj {first second : Nat × Nat}
    (firstIn : first ∈ args.pieces) (secondIn : second ∈ args.pieces)
    (same : args.packetOf payload first = args.packetOf payload second) : first = second := by
  let packet : Ipv4Packet := ⟨args.packetOf payload first, fits.checked_packetOf firstIn⟩
  have asFirst : ofPacket packet = fragmentOf payload first :=
    fits.ofPacket_packetOf firstIn rfl
  have asSecond : ofPacket packet = fragmentOf payload second :=
    fits.ofPacket_packetOf secondIn same
  refine (fits.cut.overlaps_iff firstIn secondIn).mp ?_
  rw [asFirst.symm.trans asSecond]
  exact (fits.cut.overlaps_iff secondIn secondIn).mpr rfl

end

end Fits

/-! ## Reassembling -/

namespace IpPacket

/-- What is known once a fragment is taken, and its end if it is the last one. -/
def take (known : IpPacket) (packet : Ipv4Packet) : IpPacket :=
  let fragment := ofPacket packet
  { totalLength :=
      if IpReassembler.isLastFragment packet then
        some ((fragment.data.length + fragment.offset) % 2 ^ 16)
      else known.totalLength
    fragments :=
      if known.fragments.any fun existing => existing.overlaps fragment then known.fragments
      else known.fragments ++ [fragment] }

theorem addFragment_eq_take (known : IpPacket) (packet : Ipv4Packet) :
    addFragment (if IpReassembler.isLastFragment packet then
      known.setTotalLength (((ofPacket packet).data.length +
        (ofPacket packet).offset) % 2 ^ 16) else known) (.ofPacket packet) =
      known.take packet := by
  cases overlaps : known.fragments.any fun existing => existing.overlaps (.ofPacket packet) with
  | _ =>
    cases last : IpReassembler.isLastFragment packet
    all_goals simp [addFragment, take, setTotalLength, overlaps, last]

end IpPacket

namespace IpReassembler

/-- What has been gathered under a key. -/
def gathered (reassembler : IpReassembler) (key : IpReassemblerKey) : IpPacket :=
  ((reassembler.packets.lookup key).map IpReassemblerValue.packet).getD IpPacket.new

theorem entry_packet (reassembler : IpReassembler) (key : IpReassemblerKey) (now : Nat) :
    (reassembler.entry key now).packet = reassembler.gathered key := by
  rw [entry, gathered]
  cases reassembler.packets.lookup key <;> rfl

/-- A fragment is taken into the entry of its key; the lengths of a checked packet agree. -/
theorem addFragment_eq_take (reassembler : IpReassembler) (packet : Ipv4Packet)
    (now : Nat) :
    reassembler.addFragment packet now =
      match ((reassembler.gathered packet.key).take packet).assemble with
      | (some data, _) =>
        (some data, { reassembler with packets := reassembler.packets.erase packet.key })
      | (none, kept) =>
        (none, { reassembler with
          packets := reassembler.packets.insert packet.key ⟨kept, now⟩ }) := by
  obtain ⟨_, _, declared, complete⟩ := packet.checked
  have short : totalLen packet.bytes < 2 ^ 16 := BigEndian.read_lt _ _ _
  have length : (ofPacket packet).data.length =
      totalLen packet.bytes - headerLen packet.bytes := by
    simp only [ofPacket, payload, List.length_take, List.length_drop]
    omega
  have fits : (ofPacket packet).data.length < 2 ^ 16 := by omega
  rw [addFragment, ← length, ← IpPacket.addFragment_eq_take, ← reassembler.entry_packet _ now]
  exact if_neg (not_not.mpr (Nat.mod_eq_of_lt fits).symm)

/-- A fragment of another packet changes nothing. -/
theorem gathered_addFragment_of_ne {reassembler : IpReassembler}
    {key : IpReassemblerKey} (other : packet.key ≠ key) (now : Nat) :
    (reassembler.addFragment packet now).2.gathered key = reassembler.gathered key := by
  rw [addFragment]
  dsimp only
  split
  · rfl
  · split
    · rw [gathered, AList.lookup_erase_ne other.symm, gathered]
    · rw [gathered, AList.lookup_insert_ne other.symm, gathered]

end IpReassembler

open IpReassembler

section Reassembly

variable {args : ComposeIpv4PacketArgs} {payload : Bytes} {seen : Nat × Nat → Prop}
  {reassembler : IpReassembler}

/-- What the entry becomes with a fragment of the payload. -/
def taken (payload : Bytes) (known : IpPacket) (piece : Nat × Nat) : IpPacket :=
  IpPacket.addFragment
    (if piece.1 + piece.2 = payload.length then known.setTotalLength payload.length else known)
    (fragmentOf payload piece)

variable {piece : Nat × Nat} {arrival : Ipv4Packet × Nat}

/-- A fragment of the payload is taken into the entry of its key. -/
theorem addFragment_eq (fits : Fits args payload)
    (member : piece ∈ args.pieces)
    (bytes : packet.bytes = args.packetOf payload piece) (now : Nat) :
    reassembler.addFragment packet now =
      match (taken payload (reassembler.gathered args.key) piece).assemble with
      | (some data, _) =>
        (some data, { reassembler with packets := reassembler.packets.erase args.key })
      | (none, kept) =>
        (none, { reassembler with
          packets := reassembler.packets.insert args.key ⟨kept, now⟩ }) := by
  have inside := (fits.cut.tiles.bounds member).2
  have bounded := fits.cut.bounded
  have length : (fragmentOf payload piece).data.length = piece.2 := fits.length_slice member
  rw [reassembler.addFragment_eq_take, Fits.key_packetOf bytes, ← IpPacket.addFragment_eq_take,
    fits.ofPacket_packetOf member bytes, length, offset_fragmentOf, Nat.add_comm piece.2,
    Nat.mod_eq_of_lt (show piece.1 + piece.2 < 2 ^ 16 by omega), taken]
  by_cases ends : piece.1 + piece.2 = payload.length
  · rw [if_pos ((fits.isLastFragment_packetOf member bytes).mpr ends), if_pos ends, ends]
  · rw [if_neg (mt (fits.isLastFragment_packetOf member bytes).mp ends), if_neg ends]

/-- One fragment of the payload: the payload is returned with the last missing piece. -/
theorem addFragment_packetOf [DecidablePred seen] (fits : Fits args payload)
    (member : piece ∈ args.pieces)
    (bytes : packet.bytes = args.packetOf payload piece)
    (gathers : Gathers payload args.pieces seen (reassembler.gathered args.key)) (now : Nat) :
    if ∀ other ∈ args.pieces, other = piece ∨ seen other then
      (reassembler.addFragment packet now).1 = some payload ∧
        (reassembler.addFragment packet now).2.packets.lookup args.key = none
    else
      (reassembler.addFragment packet now).1 = none ∧
        Gathers payload args.pieces (fun other => other = piece ∨ seen other)
          ((reassembler.addFragment packet now).2.gathered args.key) := by
  have grown : Gathers payload args.pieces (fun other => other = piece ∨ seen other)
      (taken payload (reassembler.gathered args.key) piece) := gathers.take fits.cut member rfl
  have assembles := grown.assemble fits.cut
  have kept := grown.assembled
  rw [addFragment_eq fits member bytes now]
  rcases outcome : (taken payload (reassembler.gathered args.key) piece).assemble
  rw [outcome] at assembles kept
  split
  case isTrue all =>
    rw [if_pos all] at assembles
    subst assembles
    exact ⟨rfl, AList.lookup_erase _ _⟩
  case isFalse missing =>
    rw [if_neg missing] at assembles
    subst assembles
    refine ⟨rfl, ?_⟩
    rw [gathered, AList.lookup_insert]
    exact kept

/-- The packets that have arrived carry the piece. -/
def Arrived (args : ComposeIpv4PacketArgs) (payload : Bytes) (arrivals : List (Ipv4Packet × Nat))
    (piece : Nat × Nat) : Prop :=
  ∃ arrival ∈ arrivals, arrival.1.bytes = args.packetOf payload piece

instance (arrivals : List (Ipv4Packet × Nat)) : DecidablePred (Arrived args payload arrivals) :=
  fun _ => inferInstanceAs (Decidable (∃ arrival ∈ arrivals, _))

theorem arrived_append_singleton : Arrived args payload (arrivals ++ [arrival]) piece ↔
      Arrived args payload arrivals piece ∨ arrival.1.bytes = args.packetOf payload piece := by
  simp only [Arrived, List.mem_append, List.mem_singleton, or_and_right, exists_or, exists_eq_left]

/-- A packet of the payload adds its own piece to those that have arrived. -/
theorem arrived_snoc (fits : Fits args payload) {other : Nat × Nat}
    (member : piece ∈ args.pieces)
    (bytes : arrival.1.bytes = args.packetOf payload piece)
    (otherIn : other ∈ args.pieces) :
    Arrived args payload (arrivals ++ [arrival]) other ↔
      other = piece ∨ Arrived args payload arrivals other := by
  rw [arrived_append_singleton, or_comm, bytes]
  refine or_congr_left ⟨fun equal => ?_, fun equal => by rw [equal]⟩
  exact fits.packetOf_inj otherIn member equal.symm

/-- As long as a piece is missing, what has been gathered are the pieces that have arrived. -/
theorem gathers_feed (fits : Fits args payload)
    (fresh : reassembler.packets.lookup args.key = none) (arrivals : List (Ipv4Packet × Nat))
    (ours : ∀ arrival ∈ arrivals, (∃ piece ∈ args.pieces,
      arrival.1.bytes = args.packetOf payload piece) ∨ arrival.1.key ≠ args.key)
    (missing : ¬ ∀ piece ∈ args.pieces, Arrived args payload arrivals piece) :
    Gathers payload args.pieces (Arrived args payload arrivals)
      ((reassembler.feed arrivals).gathered args.key) := by
  induction arrivals using List.reverseRecOn with
  | nil =>
    rw [feed, List.foldl_nil, gathered, fresh]
    exact Gathers.new.congr fun piece _ => by simp [Arrived]
  | append_singleton arrivals arrival ih =>
    have before := ih
      (fun earlier member => ours earlier (List.mem_append_left _ member))
      (fun all => missing fun piece member =>
        arrived_append_singleton.mpr (.inl (all piece member)))
    rw [feed, List.foldl_append, List.foldl_cons, List.foldl_nil]
    rcases ours arrival (List.mem_append_right _ List.mem_cons_self) with
      ⟨piece, member, bytes⟩ | other
    · have step := addFragment_packetOf fits member bytes before arrival.2
      rw [if_neg fun all => missing fun other otherIn =>
        (arrived_snoc fits member bytes otherIn).mpr (all other otherIn)] at step
      exact step.2.congr fun other otherIn => (arrived_snoc fits member bytes otherIn).symm
    · rw [← feed, gathered_addFragment_of_ne other]
      refine before.congr fun piece member => ?_
      refine (arrived_append_singleton.trans (or_iff_left fun bytes => ?_)).symm
      exact other (Fits.key_packetOf bytes)

end Reassembly

/-- Every one of the packets is among those that have arrived. -/
def AllArrived (packets : List Bytes) (arrivals : List (Ipv4Packet × Nat)) : Prop :=
  ∀ bytes ∈ packets, ∃ arrival ∈ arrivals, arrival.1.bytes = bytes

instance (packets : List Bytes) (arrivals : List (Ipv4Packet × Nat)) :
    Decidable (AllArrived packets arrivals) :=
  inferInstanceAs (Decidable (∀ bytes ∈ packets, _))

theorem allArrived_iff {args : ComposeIpv4PacketArgs} {payload : Bytes} :
    AllArrived (args.pieces.map (args.packetOf payload)) arrivals ↔
      ∀ piece ∈ args.pieces, Arrived args payload arrivals piece := List.forall_mem_map

/-- The packets of a payload that fits, taken by a reassembler that has nothing under their key yet,
in any order, any number of times and between any packets of other keys: the payload is returned
with the last packet that was missing, and nothing before. The key is free again then. -/
theorem composed_packets_reassemble (args : ComposeIpv4PacketArgs) (spare payload rest : Bytes)
    (buf : args.buf = spare ++ (payload ++ rest)) (spareLength : spare.length = 20)
    (payloadLen : args.payloadLen = payload.length) (nonempty : 1 ≤ payload.length)
    (bounded : payload.length ≤ 65515) (positive : 0 < args.payloadMtu)
    (aligned : 8 ∣ args.payloadMtu) :
    ∃ packets, composeIpv4Packet args collect [] = some (.ok packets) ∧
      (∀ bytes ∈ packets, Checked bytes) ∧
      ∀ (reassembler : IpReassembler) (arrivals : List (Ipv4Packet × Nat)) (packet : Ipv4Packet)
        (now : Nat), reassembler.packets.lookup args.key = none →
        (∀ arrival ∈ arrivals, arrival.1.bytes ∈ packets ∨ arrival.1.key ≠ args.key) →
        ¬ AllArrived packets arrivals → packet.bytes ∈ packets →
        if AllArrived packets (arrivals ++ [(packet, now)]) then
          ((reassembler.feed arrivals).addFragment packet now).1 = some payload ∧
            ((reassembler.feed arrivals).addFragment packet now).2.packets.lookup args.key = none
        else ((reassembler.feed arrivals).addFragment packet now).1 = none := by
  have fits : Fits args payload := ⟨payloadLen.symm, nonempty, bounded, positive, aligned⟩
  refine ⟨args.pieces.map (args.packetOf payload), ?_, ?_, ?_⟩
  · rw [composeIpv4Packet_eq collect positive payloadLen.symm buf spareLength, foldlM_collect,
      List.nil_append]
  · intro bytes handed
    obtain ⟨piece, member, rfl⟩ := List.mem_map.mp handed
    exact fits.checked_packetOf member
  · intro reassembler arrivals packet now fresh ours missing handed
    obtain ⟨piece, member, bytes⟩ := List.mem_map.mp handed
    have gathers := gathers_feed fits fresh arrivals (fun arrival arrived =>
      (ours arrival arrived).imp_left fun known =>
        (List.mem_map.mp known).imp fun _ carried => ⟨carried.1, carried.2.symm⟩)
      (mt allArrived_iff.mpr missing)
    have step := addFragment_packetOf fits member bytes.symm gathers now
    have same : (∀ other ∈ args.pieces, other = piece ∨ Arrived args payload arrivals other) ↔
        AllArrived (args.pieces.map (args.packetOf payload)) (arrivals ++ [(packet, now)]) :=
      (forall₂_congr fun other otherIn => (arrived_snoc fits member bytes.symm otherIn).symm).trans
        allArrived_iff.symm
    by_cases all : AllArrived (args.pieces.map (args.packetOf payload))
      (arrivals ++ [(packet, now)])
    · rw [if_pos (same.mpr all)] at step
      rw [if_pos all]
      exact step
    · rw [if_neg (mt same.mp all)] at step
      rw [if_neg all]
      exact step.1

/-- Twelve bytes behind a header's room. -/
def sampleArgs : ComposeIpv4PacketArgs where
  buf := List.replicate 20 0 ++ [0, 1, 2, 3, 4, 5, 6, 7, 8, 9, 10, 11]
  srcV4 := 0x0a010203
  dstV4 := 0x0a010204
  nextProtocol := 17
  payloadLen := 12
  payloadMtu := 8
  ipId := 42

def sampleFirst : Ipv4Packet :=
  ⟨(sampleArgs.header 0 8 0).emit ++ [0, 1, 2, 3, 4, 5, 6, 7], by decide +kernel⟩

def sampleSecond : Ipv4Packet :=
  ⟨(sampleArgs.header 8 4 1).emit ++ [8, 9, 10, 11], by decide +kernel⟩

/-- Two packets, the second of which comes first and twice. -/
theorem sample_packets_reassemble :
    composeIpv4Packet sampleArgs collect [] = some (.ok [sampleFirst.bytes, sampleSecond.bytes]) ∧
      (((new 10).feed [(sampleSecond, 0), (sampleSecond, 1)]).addFragment
        sampleFirst 2).1 = some [0, 1, 2, 3, 4, 5, 6, 7, 8, 9, 10, 11] := by
  have composed : composeIpv4Packet sampleArgs collect [] =
      some (.ok [sampleFirst.bytes, sampleSecond.bytes]) := by decide +kernel
  obtain ⟨packets, handed, _, result⟩ :=
    composed_packets_reassemble sampleArgs (List.replicate 20 0)
      [0, 1, 2, 3, 4, 5, 6, 7, 8, 9, 10, 11] [] rfl rfl rfl (by decide) (by decide) (by decide)
      (by decide)
  obtain rfl : packets = [sampleFirst.bytes, sampleSecond.bytes] := by
    rw [composed] at handed
    cases handed
    rfl
  have returned := result (new 10) [(sampleSecond, 0), (sampleSecond, 1)] sampleFirst 2
    rfl (by decide +kernel) (by decide +kernel) (by decide +kernel)
  exact ⟨composed, returned.1⟩

end EasyTier.Gateway
