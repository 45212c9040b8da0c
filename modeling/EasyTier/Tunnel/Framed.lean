import EasyTier.Data.BigEndian
import EasyTier.Data.BytesMut
import EasyTier.Packet.Layout
import EasyTier.Semantics.System

/-! # Frames on a byte stream

Over a byte stream each packet follows the length of its tunnel payload. The writer queues the
bytes of whole frames and writes as much of them as the stream takes; the reader collects what
arrives in a buffer and cuts whole frames off its front.
-/

namespace EasyTier.Tunnel

open Data Packet Semantics

inductive TunnelError where
  | invalidPacket (message : String)
  deriving DecidableEq, Repr

/-! ## The writer -/

/-- `zcpacket_into_bytes`: a length that does not fit 32 bits panics. The source adds the size of
the peer manager header to the length of the payload; that is what follows the tunnel header. -/
def zcpacketIntoBytes (item : PacketBuffer) : Option (Except TunnelError Bytes) :=
  match item.convertType .tcp with
  | none => none
  | some item =>
    let tcpLen := item.inner.length - tcpTunnelHeaderSize
    if item.inner.length < tcpTunnelHeaderSize then
      some (.error (.invalidPacket "packet too short"))
    else if 2 ^ 32 ≤ tcpLen then none
    else some (.ok (LittleEndian.encode 4 tcpLen ++ item.inner.drop tcpTunnelHeaderSize))

/-- `SendBufs::advance`. -/
def advance : List Bytes → Nat → List Bytes
  | bufs, 0 => bufs
  | [], _ => []
  | front :: bufs, count + 1 =>
    if count + 1 < front.length then front.drop (count + 1) :: bufs
    else advance bufs (count + 1 - front.length)

/-- A writer, with the packets it was given and the bytes it has written. -/
structure FramedWriter where
  sendingBufs : List Bytes
  sent : List PacketBuffer
  written : Bytes

inductive WriterEvent where
  | startSend (item : PacketBuffer)
  /-- The stream takes some of the queued bytes. -/
  | write (count : Nat)

/-- `start_send` and the loop body of `poll_flush`. -/
def FramedWriter.step (writer : FramedWriter) : WriterEvent → Option FramedWriter
  | .startSend item =>
    match zcpacketIntoBytes item with
    | some (.ok bytes) =>
      some { writer with
        sendingBufs := writer.sendingBufs ++ [bytes]
        sent := writer.sent ++ [item] }
    | some (.error _) => some writer
    | none => none
  | .write count =>
    if 0 < count ∧ count ≤ writer.sendingBufs.flatten.length then
      some { writer with
        sendingBufs := advance writer.sendingBufs count
        written := writer.written ++ writer.sendingBufs.flatten.take count }
    else none

def framedWriter : System FramedWriter WriterEvent :=
  .ofStep (fun writer => writer = ⟨[], [], []⟩) FramedWriter.step

/-- A writer was given these packets, and has flushed these bytes for them. -/
def Writes (packets : List PacketBuffer) (stream : Bytes) : Prop :=
  ∃ writer, framedWriter.Reachable writer ∧ writer.sent = packets ∧
    writer.sendingBufs.flatten = [] ∧ writer.written = stream

/-! ## The reader -/

/-- `reserve_buf`. -/
def reserveBuf (buf : BytesMut) (minSize maxSize spare : Nat) : BytesMut :=
  if buf.capacity < minSize then buf.reserve maxSize spare else buf

/-- `extract_one_packet`: a frame, or what is wrong with it, and the buffer after it. -/
def extractOnePacket (buf : BytesMut) (maxPacketSize : Nat) :
    Option (Except TunnelError Bytes × BytesMut) :=
  if buf.len < tcpTunnelHeaderSize then none
  else
    let bodyLen := LittleEndian.decode (buf.bytes.take tcpTunnelHeaderSize)
    if maxPacketSize < bodyLen then some (.error (.invalidPacket "body too long"), buf)
    else if bodyLen < peerManagerHeaderSize then
      some (.error (.invalidPacket "body too short"), buf)
    else if buf.len < tcpTunnelHeaderSize + bodyLen then none
    else
      let (frame, buf) := buf.splitTo (tcpTunnelHeaderSize + bodyLen)
      some (.ok (PacketBuffer.tunnelPayload ⟨frame, .tcp⟩), buf)

/-- What the environment decides about one read: how many bytes arrive together at most, and how
much room the allocator has to spare. -/
structure ReadChoice where
  count : Nat
  positive : 0 < count
  spare : Nat

/-- A reader on a stream: the bytes that are still to come from the stream, what was yielded so far,
and whether the end was reported. -/
structure FramedReader where
  maxPacketSize : Nat
  buf : BytesMut
  error : Option TunnelError
  incoming : Bytes
  yielded : List (Except TunnelError Bytes)
  ended : Bool

namespace FramedReader

def new (maxPacketSize : Nat) (stream : Bytes) : FramedReader where
  maxPacketSize := maxPacketSize
  buf := .withCapacity maxPacketSize
  error := none
  incoming := stream
  yielded := []
  ended := false

/-- The buffer a read goes into. -/
def readBuf (reader : FramedReader) (choice : ReadChoice) : BytesMut :=
  reserveBuf reader.buf reader.maxPacketSize (reader.maxPacketSize * 2) choice.spare

/-- A read: some of the bytes to come, as many as the buffer has room for; none are the end. -/
def readMore (reader : FramedReader) (choice : ReadChoice) : FramedReader :=
  let buf := reader.readBuf choice
  let len := min (min choice.count buf.free) reader.incoming.length
  { reader with
    buf := buf.fill (reader.incoming.take len)
    incoming := reader.incoming.drop len
    ended := len == 0 }

/-- One round of the loop of `poll_next`. -/
def poll (reader : FramedReader) (choice : ReadChoice) : FramedReader :=
  if reader.ended then reader
  else
    match reader.error with
    | some _ => { reader with ended := true }
    | none =>
      match extractOnePacket reader.buf reader.maxPacketSize with
      | some (.ok packet, buf) =>
        { reader with buf := buf, yielded := reader.yielded ++ [.ok packet] }
      | some (.error failure, buf) =>
        { reader with
          buf := buf, yielded := reader.yielded ++ [.error failure], error := some failure }
      | none => reader.readMore choice

/-- The reader after a number of rounds. -/
def after (reader : FramedReader) (choices : Nat → ReadChoice) : Nat → FramedReader
  | 0 => reader
  | rounds + 1 => (reader.after choices rounds).poll (choices rounds)

end FramedReader

end EasyTier.Tunnel
