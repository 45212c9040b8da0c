import EasyTier.Connectivity.HostResolver
import EasyTier.Data.BigEndian

/-! # Waiting for the response to a STUN query

The datagrams of the socket are read one after the other until one of them is a success response to
the query. The decoder is a library's: it fails, or finds a message with broken attributes, or a
message.
-/

namespace EasyTier.Connectivity

open Data

structure TransactionId where
  bytes : Bytes
  length : bytes.length = 12
  deriving DecidableEq

def tidToU32 (tid : TransactionId) : BitVec 32 := .ofNat 32 (LittleEndian.read tid.bytes 8 4)

def u32ToTid (tid : BitVec 32) : TransactionId where
  bytes := [0xde, 0xad, 0xbe, 0xef, 0, 0, 0, 0] ++ LittleEndian.encode 4 tid.toNat
  length := by simp

/-- The echoed id of a query is recognised. -/
theorem tidToU32_u32ToTid (tid : BitVec 32) : tidToU32 (u32ToTid tid) = tid := by
  have read : LittleEndian.read (u32ToTid tid).bytes 8 4 = tid.toNat := by
    rw [← List.append_nil (u32ToTid tid).bytes]
    exact LittleEndian.read_append_encode _ [] rfl tid.isLt
  rw [tidToU32, read, BitVec.ofNat_toNat, BitVec.setWidth_eq]

inductive MessageClass where
  | request
  | indication
  | successResponse
  | errorResponse
  deriving DecidableEq

/-- The method `BINDING`. -/
def binding : Nat := 1

structure Message (Attribute : Type) where
  messageClass : MessageClass
  method : Nat
  transactionId : TransactionId
  attributes : List Attribute

inductive Decoded (Attribute : Type) where
  | failed
  | broken
  | message (message : Message Attribute)

/-- A message begins with a header of 20 bytes. -/
structure MessageDecoder (Attribute : Type) where
  decode : Bytes → Decoded Attribute
  long : ∀ data message, decode data = .message message → 20 ≤ data.length

structure StunPacket where
  data : Bytes
  addr : SocketAddr

/-- What `recv` gives and when; there is no packet if the channel lags behind or is closed. -/
structure Received where
  time : Nat
  packet : Option StunPacket

inductive StunError where
  | elapsed
  | recv
  /-- "decode stun message from {addr}" -/
  | decode (addr : SocketAddr)
  /-- "timed out waiting for STUN response" -/
  | timedOut

section

variable {Attribute : Type} (decoder : MessageDecoder Attribute) (tids : List (BitVec 32))

/-- The loop body of `wait_stun_response`: the wait goes on without a result. -/
def lookAt : Option StunPacket → Except StunError (Option (Message Attribute × SocketAddr))
  | none => .error .recv
  | some packet =>
    if packet.data.length < 20 then .ok none
    else
      match decoder.decode packet.data with
      | .failed => .error (.decode packet.addr)
      | .broken => .ok none
      | .message message =>
        if message.messageClass ≠ .successResponse ∨ message.method ≠ binding ∨
            tidToU32 message.transactionId ∉ tids then .ok none
        else .ok (some (message, packet.addr))

/-- `wait_stun_response`, with everything that is still to be received. -/
def waitStunResponse (deadline : Nat) :
    Nat → List Received → Except StunError (Message Attribute × SocketAddr)
  | now, [] => .error (if now < deadline then .elapsed else .timedOut)
  | now, received :: later =>
    if deadline ≤ now then .error .timedOut
    else if deadline ≤ received.time then .error .elapsed
    else
      match lookAt decoder tids received.packet with
      | .error error => .error error
      | .ok none => waitStunResponse deadline received.time later
      | .ok (some response) => .ok response

/-- A success response to one of the queries. -/
def Message.answers (message : Message Attribute) : Bool :=
  message.messageClass == .successResponse && message.method == binding &&
    tids.any (message.transactionId == u32ToTid ·)

def Received.isAnswer (received : Received) : Bool :=
  received.packet.any fun packet =>
    match decoder.decode packet.data with
    | .message message => message.answers tids
    | _ => false

/-- Nothing the wait reacts to: too short, with broken attributes, or another kind of message. -/
def Received.Irrelevant (received : Received) : Prop :=
  ∃ packet, received.packet = some packet ∧
    (packet.data.length < 20 ∨ decoder.decode packet.data = .broken ∨
      ∃ message, decoder.decode packet.data = .message message ∧
        (message.messageClass ≠ .successResponse ∨ message.method ≠ binding ∨
          tidToU32 message.transactionId ∉ tids))

variable {decoder tids} {received : Received}

theorem lookAt_eq_none_iff :
    lookAt decoder tids received.packet = .ok none ↔ received.Irrelevant decoder tids := by
  unfold Received.Irrelevant
  cases received.packet with
  | none => simp [lookAt]
  | some packet =>
    by_cases short : packet.data.length < 20
    · simp [lookAt, short]
    cases decoded : decoder.decode packet.data with
    | failed => simp [lookAt, short, decoded]
    | broken => simp [lookAt, short, decoded]
    | message message =>
      simp only [lookAt, short, if_false, decoded]
      split
      · rename_i other
        exact iff_of_true rfl ⟨packet, rfl, .inr (.inr ⟨message, decoded, other⟩)⟩
      · rename_i answers
        simpa [decoded, Nat.not_lt.mp short] using answers

theorem lookAt_of_isAnswer (answer : received.isAnswer decoder tids = true) :
    ∃ message addr, lookAt decoder tids received.packet = .ok (some (message, addr)) ∧
      message.answers tids = true := by
  obtain ⟨packet, isPacket, answer⟩ := Option.any_eq_true _ _ |>.mp answer
  split at answer
  · rename_i message decoded
    have known := answer
    simp only [Message.answers, Bool.and_eq_true, beq_iff_eq, List.any_eq_true] at known
    obtain ⟨⟨success, bound⟩, tid, listed, same⟩ := known
    have recognised : tidToU32 message.transactionId ∈ tids := by
      rw [same, tidToU32_u32ToTid]
      exact listed
    refine ⟨message, packet.addr, ?_, answer⟩
    simp [isPacket, lookAt, decoder.long _ _ decoded, decoded, success, bound, recognised]
  · cases answer

theorem isAnswer_of_lookAt {response : Message Attribute × SocketAddr}
    (looked : lookAt decoder tids received.packet = .ok (some response)) :
    received.isAnswer decoder tids = response.1.answers tids := by
  unfold lookAt at looked
  split at looked
  · cases looked
  rename_i packet isPacket
  split at looked
  · cases looked
  split at looked
  · cases looked
  · cases looked
  rename_i message decoded
  split at looked
  · cases looked
  cases looked
  simp [Received.isAnswer, isPacket, decoded]

/-- A response is returned exactly if everything before the first one is passed over: no receive
fails, no datagram fails to decode, and no other success response has the last bytes of the id. -/
theorem response_returned_iff {deadline now : Nat} (begun : now < deadline)
    {received : List Received}
    (timely : ∀ item ∈ received, item.time < deadline)
    (answered : ∃ item ∈ received, item.isAnswer decoder tids = true) :
    (∃ message addr, waitStunResponse decoder tids deadline now received = .ok (message, addr) ∧
        message.answers tids = true) ↔
      ∀ item ∈ received.takeWhile (!·.isAnswer decoder tids), item.Irrelevant decoder tids := by
  simp only [← lookAt_eq_none_iff]
  induction received generalizing now with
  | nil => simp at answered
  | cons item later ih =>
    rw [List.forall_mem_cons] at timely
    rw [List.exists_mem_cons_iff] at answered
    simp only [waitStunResponse, Nat.not_le.mpr begun, Nat.not_le.mpr timely.1, if_false]
    cases answer : item.isAnswer decoder tids with
    | true =>
      obtain ⟨message, addr, looked, answers⟩ := lookAt_of_isAnswer answer
      rw [looked]
      exact iff_of_true ⟨message, addr, rfl, answers⟩ (by simp [answer])
    | false =>
      rw [List.takeWhile_cons_of_pos (by simp [answer]), List.forall_mem_cons]
      cases looked : lookAt decoder tids item.packet with
      | error => simp
      | ok response =>
        cases response with
        | none =>
          simp only [true_and]
          exact ih timely.1 timely.2 (answered.resolve_left (by simp [answer]))
        | some response =>
          -- a response to another query that is taken for one to this
          have other := (isAnswer_of_lookAt looked).symm.trans answer
          refine iff_of_false ?_ (by simp)
          rintro ⟨message, addr, same, answers⟩
          cases same
          cases other.symm.trans answers

end

/-- The class in the bits 4 and 8 of a message type. -/
def messageClassOf (messageType : Nat) : MessageClass :=
  match messageType.testBit 8, messageType.testBit 4 with
  | false, false => .request
  | false, true => .indication
  | true, false => .successResponse
  | true, true => .errorResponse

/-- The method in the other bits of a message type. -/
def methodOf (messageType : Nat) : Nat :=
  messageType % 16 + messageType / 32 % 8 * 16 + messageType / 512 * 128

/-- A decoder that reads the header only: two zero bits, the length of what follows and the magic
cookie are checked as `stun_codec` does. -/
def headerDecoder : MessageDecoder Unit where
  decode data :=
    if long : 20 ≤ data.length then
      let messageType := BigEndian.read data 0 2
      if messageType < 0x4000 ∧ data.length = 20 + BigEndian.read data 2 2 ∧
          BigEndian.read data 4 4 = 0x2112a442 then
        .message ⟨messageClassOf messageType, methodOf messageType,
          ⟨(data.drop 8).take 12, by simp; omega⟩, []⟩
      else .failed
    else .failed
  long data message decoded := by
    by_contra short
    simp [short] at decoded

private def serverAddr : SocketAddr := (.v4 1#32, 3478)

/-- What arrives after some milliseconds. -/
private def arriving (time : Nat) (data : Bytes) : Received := ⟨time, some ⟨data, serverAddr⟩⟩

/-- A binding success response without attributes. -/
private def responseTo (tid : BitVec 32) : Bytes :=
  [1, 1, 0, 0, 0x21, 0x12, 0xa4, 0x42] ++ (u32ToTid tid).bytes

/-- One datagram that is not STUN ends the wait before the response is read. -/
theorem unrelated_datagram_spoils_query :
    (arriving 20 (responseTo 7)).isAnswer headerDecoder [7] = true ∧
      waitStunResponse headerDecoder [7] 3000 0
          [arriving 10 (List.replicate 20 255), arriving 20 (responseTo 7)] =
        .error (.decode serverAddr) :=
  ⟨by decide +kernel, rfl⟩

theorem response_behind_short_datagram :
    ∃ message addr, waitStunResponse headerDecoder [7] 3000 0
        [arriving 10 [255], arriving 20 (responseTo 7)] = .ok (message, addr) ∧
      message.answers [7] = true := by
  refine (response_returned_iff (by decide) (by decide) ?_).mpr ?_
  · exact ⟨arriving 20 (responseTo 7), by simp, by decide +kernel⟩
  · intro item member
    have first : item ∈ [arriving 10 [255]] := member
    rw [List.mem_singleton.mp first]
    exact ⟨_, rfl, .inl (by decide)⟩

end EasyTier.Connectivity
