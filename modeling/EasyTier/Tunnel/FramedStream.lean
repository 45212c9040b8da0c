import EasyTier.Tunnel.Framed

/-! # Frames come out as they went in

The writer puts whole frames on the stream, however little of them it may write at a time. The
reader gets them back however they are cut, as long as its buffer is not full when it has to read.
-/

namespace EasyTier.Tunnel

open Data Packet Semantics LittleEndian BytesMut

/-- A tunnel payload behind its length. -/
def frame (payload : Bytes) : Bytes := encode 4 payload.length ++ payload

@[simp] theorem length_frame (payload : Bytes) :
    (frame payload).length = tcpTunnelHeaderSize + payload.length := by
  simp [frame, tcpTunnelHeaderSize]

/-! ## What the writer writes -/

theorem zcpacketIntoBytes_eq {item : PacketBuffer}
    (complete : item.packetType.peerManagerHeaderOffset ≤ item.inner.length) :
    zcpacketIntoBytes item =
      if 2 ^ 32 ≤ item.tunnelPayload.length then none else some
        (.ok (frame item.tunnelPayload)) := by
  obtain ⟨header, size, converted⟩ := PacketBuffer.convertType_tcp complete
  have length : (header ++ item.tunnelPayload).length - tcpTunnelHeaderSize =
      item.tunnelPayload.length := by
    rw [List.length_append, size]
    omega
  have rest : (header ++ item.tunnelPayload).drop tcpTunnelHeaderSize = item.tunnelPayload := by
    rw [← size, List.drop_left]
  rw [zcpacketIntoBytes, converted]
  dsimp only
  rw [length, rest, if_neg (by rw [List.length_append]; omega)]
  rfl

theorem flatten_advance (bufs : List Bytes) (count : Nat) :
    (advance bufs count).flatten = bufs.flatten.drop count := by
  fun_induction advance bufs count with
  | case1 => rfl
  | case2 => simp
  | case3 front bufs count fits =>
    rw [List.flatten_cons, List.flatten_cons, List.drop_append_of_le_length (by omega)]
  | case4 front bufs count whole ih =>
    have gone : front.drop (count + 1) = [] := List.drop_eq_nil_of_le (by omega)
    rw [ih, List.flatten_cons, List.drop_append, gone, List.nil_append]

/-- The bytes of one packet on the stream. -/
def bytesOf (item : PacketBuffer) : Bytes :=
  match zcpacketIntoBytes item with
  | some (.ok bytes) => bytes
  | _ => []

/-- What was written and what is queued are the packets given to the writer. -/
structure FramedWriter.Keeps (writer : FramedWriter) : Prop where
  accepted : ∀ item ∈ writer.sent, zcpacketIntoBytes item = some (.ok (bytesOf item))
  content : writer.written ++ writer.sendingBufs.flatten = writer.sent.flatMap bytesOf

theorem FramedWriter.Keeps.step {before after : FramedWriter} (keeps : before.Keeps)
    {event : WriterEvent} (transition : before.step event = some after) : after.Keeps := by
  cases event with
  | startSend item =>
    cases converted : zcpacketIntoBytes item with
    | none => simp [FramedWriter.step, converted] at transition
    | some outcome =>
      cases outcome with
      | error failure =>
        simp only [FramedWriter.step, converted] at transition
        cases transition
        exact keeps
      | ok bytes =>
        simp only [FramedWriter.step, converted] at transition
        cases transition
        have itsBytes : bytesOf item = bytes := by simp [bytesOf, converted]
        constructor
        · intro other member
          rcases List.mem_append.mp member with earlier | latest
          · exact keeps.accepted other earlier
          · obtain rfl := List.mem_singleton.mp latest
            rw [itsBytes, converted]
        · rw [List.flatten_append, ← List.append_assoc, keeps.content, List.flatMap_append,
            List.flatMap_singleton, itsBytes, List.flatten_singleton]
  | write count =>
    simp only [FramedWriter.step] at transition
    split at transition
    case isFalse => cases transition
    case isTrue =>
      cases transition
      refine ⟨keeps.accepted, ?_⟩
      rw [flatten_advance, List.append_assoc, List.take_append_drop, keeps.content]

theorem keeps_of_reachable {writer : FramedWriter} (reached : framedWriter.Reachable writer) :
    writer.Keeps := by
  refine reached.invariant ?_ ?_
  · rintro state rfl
    exact ⟨fun _ member => (List.not_mem_nil member).elim, rfl⟩
  · intro before event after keeps _ transition
    exact keeps.step transition

/-- The stream of packets that have a peer manager header holds their frames. -/
theorem Writes.stream_eq {packets : List PacketBuffer} {stream : Bytes}
    (wrote : Writes packets stream)
    (headers : ∀ packet ∈ packets, peerManagerHeaderSize ≤ packet.tunnelPayload.length) :
    stream = (packets.map (·.tunnelPayload)).flatMap frame ∧
      ∀ packet ∈ packets, packet.tunnelPayload.length < 2 ^ 32 := by
  obtain ⟨writer, reached, rfl, flushed, rfl⟩ := wrote
  have keeps := keeps_of_reachable reached
  have content := keeps.content
  have converted : ∀ packet ∈ writer.sent, packet.tunnelPayload.length < 2 ^ 32 ∧
      bytesOf packet = frame packet.tunnelPayload := by
    intro packet member
    have long := headers packet member
    have complete : packet.packetType.peerManagerHeaderOffset ≤ packet.inner.length := by
      rw [PacketBuffer.tunnelPayload, List.length_drop, peerManagerHeaderSize] at long
      omega
    have accepted := keeps.accepted packet member
    rw [zcpacketIntoBytes_eq complete] at accepted
    split at accepted
    case isTrue => cases accepted
    case isFalse small =>
      exact ⟨Nat.not_le.mp small, (Except.ok.inj (Option.some.inj accepted)).symm⟩
  refine ⟨?_, fun packet member => (converted packet member).1⟩
  rw [flushed, List.append_nil] at content
  rw [content, List.flatMap_map]
  exact List.flatMap_congr fun packet member => (converted packet member).2

/-- However little the stream takes at a time, what was written and what is queued are the frames of
the packets given to the writer, in order. -/
theorem writer_holds_frames {writer : FramedWriter} (reached : framedWriter.Reachable writer)
    (headers : ∀ packet ∈ writer.sent, peerManagerHeaderSize ≤ packet.tunnelPayload.length) :
    writer.written ++ writer.sendingBufs.flatten =
      (writer.sent.map (·.tunnelPayload)).flatMap frame := by
  by_cases flushed : writer.sendingBufs.flatten = []
  · rw [flushed, List.append_nil]
    exact (Writes.stream_eq ⟨writer, reached, rfl, flushed, rfl⟩ headers).1
  · -- the stream may take all that is queued
    have takes : framedWriter.step writer (.write writer.sendingBufs.flatten.length) _ :=
      if_pos ⟨List.length_pos_iff.mpr flushed, Nat.le_refl _⟩
    have rest : (advance writer.sendingBufs writer.sendingBufs.flatten.length).flatten = [] := by
      rw [flatten_advance, List.drop_length]
    have wrote := Writes.stream_eq ⟨_, .step reached trivial takes, rfl, rest, rfl⟩ headers
    rw [← wrote.1, List.take_length]

/-! ## What the reader finds in its buffer -/

/-- Payloads the reader is to accept. -/
def Acceptable (maxPacketSize : Nat) (payload : Bytes) : Prop :=
  peerManagerHeaderSize ≤ payload.length ∧ payload.length ≤ maxPacketSize ∧
    payload.length < 2 ^ 32

variable {incoming payload rest : Bytes} {maxPacketSize : Nat}

/-- The start of a buffer that is followed by the rest of a frame. -/
theorem take_of_frame {bytes : Bytes} {count : Nat}
    (content : bytes ++ incoming = frame payload ++ rest) (present : count ≤ bytes.length)
    (inFrame : count ≤ (frame payload).length) : bytes.take count = (frame payload).take count := by
  have whole := congrArg (List.take count) content
  rwa [List.take_append_of_le_length present, List.take_append_of_le_length inFrame] at whole

section

variable (acceptable : Acceptable maxPacketSize payload)
include acceptable

/-- The length in front of a frame. -/
theorem bodyLen_of_frame {bytes : Bytes} (content : bytes ++ incoming = frame payload ++ rest)
    (present : tcpTunnelHeaderSize ≤ bytes.length) :
    decode (bytes.take tcpTunnelHeaderSize) = payload.length := by
  have header : (frame payload).take tcpTunnelHeaderSize =
      encode 4 payload.length := List.take_left' (length_encode 4 _)
  rw [take_of_frame content present (by rw [length_frame]; omega), header,
    decode_encode acceptable.2.2]

/-- No frame is extracted before it is complete. -/
theorem extractOnePacket_of_incomplete {buf : BytesMut}
    (content : buf.bytes ++ incoming = frame payload ++ rest)
    (incomplete : buf.len < tcpTunnelHeaderSize + payload.length) :
    extractOnePacket buf maxPacketSize = none := by
  unfold extractOnePacket
  by_cases short : buf.len < tcpTunnelHeaderSize
  · rw [if_pos short]
  · have bodyLen := bodyLen_of_frame acceptable content (Nat.not_lt.mp short)
    obtain ⟨least, most, -⟩ := acceptable
    rw [if_neg short, bodyLen]
    rw [if_neg (by omega), if_neg (by omega), if_pos incomplete]

/-- A complete frame is extracted, and the rest of the buffer stays. -/
theorem extractOnePacket_of_complete {buf : BytesMut}
    (content : buf.bytes ++ incoming = frame payload ++ rest)
    (complete : tcpTunnelHeaderSize + payload.length ≤ buf.len) :
    ∃ left, extractOnePacket buf maxPacketSize = some (.ok payload, left) ∧
      left.bytes ++ incoming = rest := by
  have bodyLen := bodyLen_of_frame acceptable content (by unfold len at complete; omega)
  have whole : buf.bytes.take (tcpTunnelHeaderSize + payload.length) = frame payload := by
    rw [take_of_frame content complete (Nat.le_of_eq (length_frame payload).symm), ← length_frame,
      List.take_length]
  obtain ⟨least, most, -⟩ := acceptable
  refine ⟨(buf.splitTo (tcpTunnelHeaderSize + payload.length)).2, ?_, ?_⟩
  · unfold extractOnePacket
    rw [if_neg (by omega), bodyLen]
    dsimp only
    rw [if_neg (by omega), if_neg (by omega), if_neg (by omega)]
    have cut : PacketBuffer.tunnelPayload
        ⟨(buf.splitTo (tcpTunnelHeaderSize + payload.length)).1, .tcp⟩ = payload := by
      change (buf.bytes.take (tcpTunnelHeaderSize + payload.length)).drop 4 = payload
      rw [whole, frame, List.drop_left' (length_encode 4 _)]
    rw [cut]
  · have dropped := congrArg (List.drop (tcpTunnelHeaderSize + payload.length)) content
    have after : (frame payload ++ rest).drop (tcpTunnelHeaderSize + payload.length) = rest := by
      rw [← length_frame, List.drop_left]
    rw [List.drop_append_of_le_length complete, after] at dropped
    exact dropped

end

/-! ## One round of the reader -/

namespace FramedReader

/-- Where a read is needed and bytes are to come, the buffer is below the size at which it grows or
has room. -/
def HasRoom (reader : FramedReader) : Prop :=
  reader.ended = false → extractOnePacket reader.buf reader.maxPacketSize = none →
    reader.incoming ≠ [] → reader.buf.capacity < reader.maxPacketSize ∨ 0 < reader.buf.free

/-- The reader has yielded all payloads but the rest, which is what its buffer and the stream
hold. -/
structure Tracks (reader : FramedReader) (payloads rest : List Bytes) : Prop where
  healthy : reader.error = none
  yielded : ∃ done, payloads = done ++ rest ∧ reader.yielded = done.map .ok
  content : reader.buf.bytes ++ reader.incoming = rest.flatMap frame

theorem readBuf_bytes (reader : FramedReader) (choice : ReadChoice) :
    (reader.readBuf choice).bytes = reader.buf.bytes := by
  unfold readBuf reserveBuf
  split
  · exact reserve_bytes _ _ _
  · rfl

/-- A read moves bytes from the stream to the buffer. -/
theorem readMore_content (reader : FramedReader) (choice : ReadChoice) :
    (reader.readMore choice).buf.bytes ++ (reader.readMore choice).incoming =
      reader.buf.bytes ++ reader.incoming := by
  unfold readMore fill
  dsimp only
  rw [readBuf_bytes, List.append_assoc, List.take_take, Nat.min_eq_right (by omega),
    List.take_append_drop]

variable {reader : FramedReader} {payloads rest : List Bytes} {rounds : Nat} (choice : ReadChoice)

section

variable (tracks : reader.Tracks payloads rest)
include tracks

/-- A round that extracts a frame yields its payload. -/
theorem Tracks.poll_complete (running : reader.ended = false)
    {payload : Bytes} {others : List Bytes} (next : rest = payload :: others)
    (acceptable : Acceptable reader.maxPacketSize payload)
    (complete : tcpTunnelHeaderSize + payload.length ≤ reader.buf.len) (choice : ReadChoice) :
    (reader.poll choice).Tracks payloads others ∧ (reader.poll choice).ended = false ∧
      (reader.poll choice).incoming = reader.incoming := by
  subst next
  obtain ⟨left, extracted, content⟩ :=
    extractOnePacket_of_complete acceptable tracks.content complete
  obtain ⟨done, parts, yielded⟩ := tracks.yielded
  simp only [poll, running, Bool.false_eq_true, if_false, tracks.healthy, extracted]
  refine ⟨⟨rfl, ⟨done ++ [payload], ?_, ?_⟩, content⟩, trivial, trivial⟩
  · rw [parts, List.append_assoc, List.singleton_append]
  · rw [yielded, List.map_append, List.map_singleton]

/-- Without a frame a round reads. -/
theorem Tracks.poll_incomplete
    (running : reader.ended = false)
    (incomplete : extractOnePacket reader.buf reader.maxPacketSize = none) (choice : ReadChoice) :
    reader.poll choice = reader.readMore choice := by
  simp only [poll, running, Bool.false_eq_true, if_false, tracks.healthy, incomplete]

theorem Tracks.readMore :
    (reader.readMore choice).Tracks payloads rest :=
  ⟨tracks.healthy, tracks.yielded, (readMore_content reader choice).trans tracks.content⟩

omit tracks in
/-- With bytes to come and room for them a read takes some. -/
theorem readMore_progress (reader : FramedReader) (choice : ReadChoice)
    (toCome : reader.incoming ≠ []) (room : 0 < (reader.readBuf choice).free) :
    (reader.readMore choice).ended = false ∧
      (reader.readMore choice).incoming.length < reader.incoming.length := by
  have some_bytes : 0 < reader.incoming.length := List.length_pos_iff.mpr toCome
  have positive := choice.positive
  unfold readMore
  rw [List.length_drop, beq_eq_false_iff_ne]
  omega

omit tracks in
/-- A buffer that has room, or grows, has room for a read. -/
theorem free_readBuf_pos (positive : 0 < reader.maxPacketSize)
    (room : reader.buf.capacity < reader.maxPacketSize ∨ 0 < reader.buf.free) :
    0 < (reader.readBuf choice).free := by
  unfold readBuf reserveBuf
  split
  · exact Nat.lt_of_lt_of_le (Nat.mul_pos positive (by decide))
      (reader.buf.le_free_reserve (reader.maxPacketSize * 2) choice.spare)
  · omega

/-- One round: a payload is yielded, or bytes are read, or everything was delivered and the end is
reported. -/
theorem Tracks.poll (running : reader.ended = false)
    (acceptable : ∀ payload ∈ payloads, Acceptable reader.maxPacketSize payload)
    (room : reader.HasRoom) (choice : ReadChoice) :
    (∃ others, (reader.poll choice).Tracks payloads others ∧ (reader.poll choice).ended = false ∧
      (reader.poll choice).incoming.length + others.length <
        reader.incoming.length + rest.length) ∨
    ((reader.poll choice).Tracks payloads [] ∧ (reader.poll choice).ended = true ∧
      (reader.poll choice).incoming = []) := by
  have restAcceptable : ∀ payload ∈ rest, Acceptable reader.maxPacketSize payload := by
    obtain ⟨done, parts, -⟩ := tracks.yielded
    intro payload member
    exact acceptable payload (parts ▸ List.mem_append_right _ member)
  cases rest with
  | nil =>
    obtain ⟨empty, finished⟩ := List.append_eq_nil_iff.mp tracks.content
    have incomplete : extractOnePacket reader.buf reader.maxPacketSize = none := by
      simp [extractOnePacket, len, empty, tcpTunnelHeaderSize]
    rw [tracks.poll_incomplete running incomplete]
    exact .inr ⟨tracks.readMore choice, by simp [FramedReader.readMore, finished],
      by simp [FramedReader.readMore, finished]⟩
  | cons payload others =>
    have fits := restAcceptable payload (List.mem_cons_self ..)
    by_cases complete : tcpTunnelHeaderSize + payload.length ≤ reader.buf.len
    · obtain ⟨next, stillRunning, same⟩ := tracks.poll_complete running rfl fits complete choice
      refine .inl ⟨others, next, stillRunning, ?_⟩
      rw [same, List.length_cons]
      omega
    · have incomplete :=
        extractOnePacket_of_incomplete fits tracks.content (Nat.not_le.mp complete)
      have toCome : reader.incoming ≠ [] := by
        intro finished
        have content := congrArg List.length tracks.content
        rw [finished, List.append_nil, List.flatMap_cons, List.length_append,
          length_frame] at content
        unfold len at complete
        omega
      have positive : 0 < reader.maxPacketSize := by
        obtain ⟨least, most, -⟩ := fits
        unfold peerManagerHeaderSize at least
        omega
      rw [tracks.poll_incomplete running incomplete]
      obtain ⟨stillRunning, fewer⟩ := readMore_progress reader choice toCome
        (free_readBuf_pos choice positive (room running incomplete toCome))
      exact .inl ⟨payload :: others, tracks.readMore choice, stillRunning, by omega⟩

end

/-! ## Runs of the reader -/

@[simp] theorem maxPacketSize_poll (reader : FramedReader) (choice : ReadChoice) :
    (reader.poll choice).maxPacketSize = reader.maxPacketSize := by
  unfold poll
  split
  · rfl
  · split
    · rfl
    · split <;> rfl

theorem maxPacketSize_after (reader : FramedReader) (choices : Nat → ReadChoice) (rounds : Nat) :
    (reader.after choices rounds).maxPacketSize = reader.maxPacketSize := by
  induction rounds with
  | zero => rfl
  | succ rounds ih => rw [after, maxPacketSize_poll, ih]

/-- Nothing happens after the end. -/
theorem after_add_of_ended {choices : Nat → ReadChoice}
    (ended : (reader.after choices rounds).ended = true) (more : Nat) :
    reader.after choices (rounds + more) = reader.after choices rounds := by
  induction more with
  | zero => rfl
  | succ more ih => rw [← Nat.add_assoc, after, ih, poll, if_pos ended]

/-- Where a run is after some rounds: on its way, with fewer bytes and payloads left than rounds
allow, or at the end with everything delivered. -/
structure Underway (reader : FramedReader) (payloads : List Bytes) (rounds : Nat)
    (rest : List Bytes) : Prop where
  tracks : reader.Tracks payloads rest
  finished : reader.ended = true → rest = [] ∧ reader.incoming = []
  bound : reader.ended = false → reader.incoming.length + rest.length + rounds ≤
    (payloads.flatMap frame).length + payloads.length

theorem Underway.poll (underway : reader.Underway payloads rounds rest)
    (acceptable : ∀ payload ∈ payloads, Acceptable reader.maxPacketSize payload)
    (room : reader.HasRoom) (choice : ReadChoice) :
    ∃ left, (reader.poll choice).Underway payloads (rounds + 1) left := by
  cases running : reader.ended with
  | true =>
    have stays : reader.poll choice = reader := by rw [FramedReader.poll, if_pos running]
    rw [stays]
    exact ⟨rest, underway.tracks, underway.finished,
      fun still => absurd (running.symm.trans still) (by decide)⟩
  | false =>
    have before := underway.bound running
    rcases underway.tracks.poll running acceptable room choice with
      ⟨others, next, stillRunning, fewer⟩ | ⟨next, ended, nothing⟩
    · refine ⟨others, next, fun ended => absurd (stillRunning.symm.trans ended) (by decide), ?_⟩
      omega
    · exact ⟨[], next, fun _ => ⟨rfl, nothing⟩,
        fun still => absurd (ended.symm.trans still) (by decide)⟩

/-- The reader of a stream of frames after some rounds. -/
def ofPayloads (maxPacketSize : Nat) (payloads : List Bytes) (choices : Nat → ReadChoice)
    (rounds : Nat) : FramedReader :=
  (new maxPacketSize (payloads.flatMap frame)).after choices rounds

theorem maxPacketSize_ofPayloads (maxPacketSize : Nat) (payloads : List Bytes)
    (choices : Nat → ReadChoice) (rounds : Nat) :
    (ofPayloads maxPacketSize payloads choices rounds).maxPacketSize = maxPacketSize :=
  maxPacketSize_after _ choices rounds

section Runs

variable {maxPacketSize : Nat} {choices : Nat → ReadChoice}

/-- As long as there was room the reader is on its way, or has delivered everything. -/
theorem underway_ofPayloads
    (acceptable : ∀ payload ∈ payloads, Acceptable maxPacketSize payload)
    (room : ∀ earlier < rounds, (ofPayloads maxPacketSize payloads choices earlier).HasRoom) :
    ∃ rest, (ofPayloads maxPacketSize payloads choices rounds).Underway payloads rounds rest := by
  induction rounds with
  | zero =>
    exact ⟨payloads, ⟨rfl, ⟨[], rfl, rfl⟩, rfl⟩, (fun ended => nomatch ended),
      fun _ => Nat.le_refl _⟩
  | succ rounds ih =>
    obtain ⟨rest, underway⟩ := ih fun earlier before => room earlier (Nat.lt_succ_of_lt before)
    refine underway.poll ?_ (room rounds (Nat.lt_succ_self rounds)) (choices rounds)
    rw [maxPacketSize_ofPayloads]
    exact acceptable

/-- The reader has yielded the payloads, in order, and reported the end after the stream's own. -/
def Delivered (reader : FramedReader) (payloads : List Bytes) : Prop :=
  reader.ended = true ∧ reader.incoming = [] ∧ reader.yielded = payloads.map .ok

section

variable (acceptable : ∀ payload ∈ payloads, Acceptable maxPacketSize payload)
include acceptable

/-- With room at every read everything is delivered. -/
theorem delivered_of_hasRoom
    (room : ∀ rounds, (ofPayloads maxPacketSize payloads choices rounds).HasRoom) :
    ∃ rounds, (ofPayloads maxPacketSize payloads choices rounds).Delivered payloads := by
  obtain ⟨rounds, enough⟩ : ∃ rounds, rounds =
      (payloads.flatMap frame).length + payloads.length + 1 :=
    ⟨_, rfl⟩
  refine ⟨rounds, ?_⟩
  obtain ⟨rest, tracks, finished, bound⟩ :=
    underway_ofPayloads acceptable fun earlier (_ : earlier < rounds) => room earlier
  -- A reader that is still running has used up fewer rounds than there are bytes and payloads.
  have ended : (ofPayloads maxPacketSize payloads choices rounds).ended = true := by
    rw [← Bool.not_eq_false]
    intro running
    have := bound running
    omega
  obtain ⟨rfl, nothing⟩ := finished ended
  obtain ⟨done, parts, yielded⟩ := tracks.yielded
  rw [List.append_nil] at parts
  exact ⟨ended, nothing, parts ▸ yielded⟩

omit acceptable in
/-- A read without room is taken for the end. -/
theorem poll_of_cramped (running : reader.ended = false)
    (healthy : reader.error = none)
    (incomplete : extractOnePacket reader.buf reader.maxPacketSize = none)
    (large : reader.maxPacketSize ≤ reader.buf.capacity) (full : reader.buf.free = 0) :
    (reader.poll choice).ended = true ∧ (reader.poll choice).incoming = reader.incoming := by
  have unchanged : reader.readBuf choice = reader.buf := by
    rw [readBuf, reserveBuf, if_neg (Nat.not_lt.mpr large)]
  simp [poll, running, healthy, incomplete, readMore, unchanged, full]

/-- A run that delivers everything had room at every read. -/
theorem hasRoom_of_delivered
    (delivered : (ofPayloads maxPacketSize payloads choices rounds).Delivered payloads) :
    ∀ round, (ofPayloads maxPacketSize payloads choices round).HasRoom := by
  intro round
  induction round using Nat.strongRecOn with
  | ind round earlier =>
    obtain ⟨rest, tracks, -, -⟩ := underway_ofPayloads acceptable earlier
    intro running incomplete toCome
    by_contra cramped
    obtain ⟨large, full⟩ := not_or.mp cramped
    obtain ⟨ended, same⟩ := poll_of_cramped (choices round) running tracks.healthy incomplete
      (Nat.not_lt.mp large) (Nat.eq_zero_of_not_pos full)
    obtain ⟨deliveredEnd, nothing, -⟩ := delivered
    rcases Nat.lt_or_ge round rounds with before | notBefore
    · -- The run ended in this round, with bytes to come.
      have endedAfter : (ofPayloads maxPacketSize payloads choices (round + 1)).ended =
          true := ended
      obtain ⟨more, rfl⟩ := Nat.exists_eq_add_of_lt before
      rw [ofPayloads, Nat.add_right_comm, after_add_of_ended endedAfter] at nothing
      exact toCome (same.symm.trans nothing)
    · obtain ⟨more, rfl⟩ := Nat.exists_eq_add_of_le notBefore
      rw [ofPayloads, after_add_of_ended deliveredEnd] at running
      exact absurd (running.symm.trans deliveredEnd) (by decide)

/-- Frames that fit a buffer of the least capacity always find room. -/
theorem hasRoom_of_small
    (small : ∀ payload ∈ payloads, tcpTunnelHeaderSize + payload.length ≤ maxPacketSize)
    (round : Nat) : (ofPayloads maxPacketSize payloads choices round).HasRoom := by
  induction round using Nat.strongRecOn with
  | ind round earlier =>
    obtain ⟨rest, tracks, -, -⟩ := underway_ofPayloads acceptable earlier
    have size := maxPacketSize_ofPayloads maxPacketSize payloads choices round
    generalize ofPayloads maxPacketSize payloads choices round = reader at tracks size
    intro running incomplete toCome
    obtain ⟨done, parts, -⟩ := tracks.yielded
    cases rest with
    | nil => exact absurd (List.append_eq_nil_iff.mp tracks.content).2 toCome
    | cons payload others =>
      have member : payload ∈ payloads := parts ▸ List.mem_append_right _ (List.mem_cons_self ..)
      have fits := small payload member
      have short : ¬ tcpTunnelHeaderSize + payload.length ≤ reader.buf.len := by
        intro complete
        obtain ⟨left, extracted, -⟩ := extractOnePacket_of_complete
          (size ▸ acceptable payload member) tracks.content complete
        rw [incomplete] at extracted
        cases extracted
      unfold free
      omega

end

end Runs

end FramedReader

open FramedReader

/-- Packets come out as they went in exactly if the buffer has room at every read; it always has for
packets whose frames are not longer than the largest packet. -/
theorem framed_roundtrip_iff {maxPacketSize : Nat} {packets : List PacketBuffer} {stream : Bytes}
    (wrote : Writes packets stream)
    (sizes : ∀ packet ∈ packets, peerManagerHeaderSize ≤ packet.tunnelPayload.length ∧
      packet.tunnelPayload.length ≤ maxPacketSize) (choices : Nat → ReadChoice) :
    ((∃ rounds, ((new maxPacketSize stream).after choices rounds).Delivered
        (packets.map (·.tunnelPayload))) ↔
      ∀ rounds, ((new maxPacketSize stream).after choices rounds).HasRoom) ∧
    ((∀ packet ∈ packets, tcpTunnelHeaderSize + packet.tunnelPayload.length ≤ maxPacketSize) →
      ∀ rounds, ((new maxPacketSize stream).after choices rounds).HasRoom) := by
  obtain ⟨rfl, short⟩ := wrote.stream_eq fun packet member => (sizes packet member).1
  have acceptable : ∀ payload ∈ packets.map (·.tunnelPayload),
      Acceptable maxPacketSize payload := by
    intro payload member
    obtain ⟨packet, listed, rfl⟩ := List.mem_map.mp member
    exact ⟨(sizes packet listed).1, (sizes packet listed).2, short packet listed⟩
  refine ⟨⟨?_, delivered_of_hasRoom acceptable⟩, ?_⟩
  · rintro ⟨rounds, delivered⟩
    exact hasRoom_of_delivered acceptable delivered
  · intro small
    refine hasRoom_of_small acceptable ?_
    intro payload member
    obtain ⟨packet, listed, rfl⟩ := List.mem_map.mp member
    exact small packet listed

/-! ## A packet of the largest size -/

/-- A packet without a tunnel header, with twenty bytes of tunnel payload. -/
def twentyBytes : PacketBuffer := ⟨List.replicate 20 7#8, .dummyTunnel⟩

/-- Reads that bring everything there is room for. -/
def eagerReads (_ : Nat) : ReadChoice := ⟨1000, by decide, 0⟩

theorem writes_twentyBytes : Writes [twentyBytes] (frame twentyBytes.tunnelPayload) := by
  have ran : System.run? FramedWriter.step ⟨[], [], []⟩ [.startSend twentyBytes, .write 24] =
      some ⟨[], [twentyBytes], frame twentyBytes.tunnelPayload⟩ := by
    rfl
  exact ⟨_, System.reachable_of_run? rfl ran, rfl, rfl, rfl⟩

theorem half_frame_held : ∃ writer, framedWriter.Reachable writer ∧
    writer.written.length = 10 ∧
    writer.written ++ writer.sendingBufs.flatten = frame twentyBytes.tunnelPayload := by
  refine System.exists_reachable ⟨[], [], []⟩ [.startSend twentyBytes, .write 10]
    (fun writer => writer.sent = [twentyBytes] ∧ writer.written.length = 10) rfl
    (by decide +kernel) ?_
  rintro writer reached _ ⟨sent, short⟩
  exact ⟨short, by simpa [sent] using writer_holds_frames reached (by rw [sent]; decide)⟩

/-- A packet of the largest size fills the buffer before it is complete, and the stream seems to
have ended. -/
theorem largest_packet_not_delivered :
    Writes [twentyBytes] (frame twentyBytes.tunnelPayload) ∧
      (∀ packet ∈ [twentyBytes], peerManagerHeaderSize ≤ packet.tunnelPayload.length ∧
        packet.tunnelPayload.length ≤ 20) ∧
      ¬ ∃ rounds, ((new 20 (frame twentyBytes.tunnelPayload)).after eagerReads
        rounds).Delivered [twentyBytes.tunnelPayload] := by
  refine ⟨writes_twentyBytes, by decide, ?_⟩
  rintro ⟨rounds, ended, nothing, -⟩
  have stopped : ((new 20 (frame twentyBytes.tunnelPayload)).after eagerReads
      2).ended = true := by decide +kernel
  rcases Nat.lt_or_ge rounds 2 with early | late
  · have running : ∀ rounds < 2, ((new 20 (frame twentyBytes.tunnelPayload)).after
        eagerReads rounds).ended = false := by decide +kernel
    rw [running rounds early] at ended
    cases ended
  · obtain ⟨more, rfl⟩ := Nat.exists_eq_add_of_le late
    rw [after_add_of_ended stopped] at nothing
    revert nothing
    decide +kernel

/-- The same packet is delivered where packets may be four bytes longer. -/
theorem smaller_packet_delivered :
    ∃ rounds, ((new 24 (frame twentyBytes.tunnelPayload)).after eagerReads
      rounds).Delivered [twentyBytes.tunnelPayload] := by
  obtain ⟨delivered, small⟩ := framed_roundtrip_iff writes_twentyBytes
    (show ∀ packet ∈ [twentyBytes], peerManagerHeaderSize ≤ packet.tunnelPayload.length ∧
      packet.tunnelPayload.length ≤ 24 by decide) eagerReads
  exact delivered.mpr (small (by decide))

end EasyTier.Tunnel
