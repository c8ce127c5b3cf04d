import SoulLib.Networking.Packet

/-! What the transports put on the wire and read back.

A TCP connection carries one packet: its payload size, its header and its
payload. A UDP datagram carries a header and a payload. Headers are copied byte
for byte from memory, so they are in the byte order of the hosts.
-/

set_option autoImplicit false

namespace SoulLib.Networking

abbrev Byte := BitVec 8

inductive ByteOrder where
  | littleEndian
  | bigEndian
  deriving DecidableEq, Repr

namespace ByteOrder

/-- Bytes given from the least significant one, in memory order, and back. -/
def arrange (order : ByteOrder) (bytes : List Byte) : List Byte :=
  match order with
  | .littleEndian => bytes
  | .bigEndian => bytes.reverse

def encode32 (order : ByteOrder) (value : BitVec 32) : List Byte :=
  order.arrange [value.extractLsb' 0 8, value.extractLsb' 8 8, value.extractLsb' 16 8, value.extractLsb' 24 8]

def decode32 (order : ByteOrder) (bytes : List Byte) : BitVec 32 :=
  match order.arrange bytes with
  | [first, second, third, fourth] => fourth ++ third ++ second ++ first
  | _ => 0

def encode16 (order : ByteOrder) (value : BitVec 16) : List Byte :=
  order.arrange [value.extractLsb' 0 8, value.extractLsb' 8 8]

def decode16 (order : ByteOrder) (bytes : List Byte) : BitVec 16 :=
  match order.arrange bytes with
  | [first, second] => second ++ first
  | _ => 0

theorem decode32_encode32 (order : ByteOrder) (value : BitVec 32) : order.decode32 (order.encode32 value) = value := by
  have joined : value.extractLsb' 24 8 ++ value.extractLsb' 16 8 ++ value.extractLsb' 8 8 ++ value.extractLsb' 0 8 =
      value := by
    apply BitVec.eq_of_getLsbD_eq
    intro i bound
    simp only [BitVec.getLsbD_append, BitVec.getLsbD_extractLsb']
    interval_cases i <;> simp
  cases order <;> exact joined

theorem decode16_encode16 (order : ByteOrder) (value : BitVec 16) : order.decode16 (order.encode16 value) = value := by
  have joined : value.extractLsb' 8 8 ++ value.extractLsb' 0 8 = value := by
    apply BitVec.eq_of_getLsbD_eq
    intro i bound
    simp only [BitVec.getLsbD_append, BitVec.getLsbD_extractLsb']
    interval_cases i <;> simp
  cases order <;> exact joined

@[simp] theorem length_encode32 (order : ByteOrder) (value : BitVec 32) : (order.encode32 value).length = 4 := by
  cases order <;> rfl

@[simp] theorem length_encode16 (order : ByteOrder) (value : BitVec 16) : (order.encode16 value).length = 2 := by
  cases order <;> rfl

end ByteOrder

namespace DeliveryGuarantee

def encode : DeliveryGuarantee → Byte
  | .unreliable => 0
  | .reliable => 1

/-- A byte that is no enumerator differs from `Reliable` in every comparison of the source. -/
def decode (byte : Byte) : DeliveryGuarantee := if byte = 1 then .reliable else .unreliable

theorem decode_encode (guarantee : DeliveryGuarantee) : decode guarantee.encode = guarantee := by
  cases guarantee <;> rfl

end DeliveryGuarantee

namespace PacketHeader

/-- `kPacketHeaderSize`: the fields leave no padding. -/
def size : Nat := 16

def encode (order : ByteOrder) (header : PacketHeader) : List Byte :=
  order.encode32 header.sequence ++ order.encode32 header.acknowledgment ++
    order.encode32 header.acknowledgmentMask ++ [header.guarantee.encode, header.flags.bits] ++
    order.encode16 header.channel

def decode (order : ByteOrder) (bytes : List Byte) : PacketHeader where
  sequence := order.decode32 (bytes.take 4)
  acknowledgment := order.decode32 ((bytes.drop 4).take 4)
  acknowledgmentMask := order.decode32 ((bytes.drop 8).take 4)
  guarantee := .decode (bytes[12]?.getD 0)
  flags := ⟨bytes[13]?.getD 0⟩
  channel := order.decode16 ((bytes.drop 14).take 2)

@[simp] theorem length_encode (order : ByteOrder) (header : PacketHeader) : (header.encode order).length = size := by
  simp [encode, size]

theorem decode_encode (order : ByteOrder) (header : PacketHeader) : decode order (header.encode order) = header := by
  obtain ⟨sequence, acknowledgment, mask, guarantee, flags, channel⟩ := header
  have sequenceBytes := order.decode32_encode32 sequence
  have acknowledgmentBytes := order.decode32_encode32 acknowledgment
  have maskBytes := order.decode32_encode32 mask
  have guaranteeByte := guarantee.decode_encode
  have channelBytes := order.decode16_encode16 channel
  -- Each field is read back from the bytes it was written to.
  rw [decode, PacketHeader.mk.injEq]
  cases order with
  | littleEndian => exact ⟨sequenceBytes, acknowledgmentBytes, maskBytes, guaranteeByte, rfl, channelBytes⟩
  | bigEndian => exact ⟨sequenceBytes, acknowledgmentBytes, maskBytes, guaranteeByte, rfl, channelBytes⟩

end PacketHeader

/-- `recv` with `MSG_WAITALL`: the bytes asked for, or fewer at the end of the stream, and
the stream after them. A negative count yields nothing, like the error it is. -/
def recv (stream : List Byte) (count : Int) : List Byte × List Byte :=
  (stream.take count.toNat, stream.drop count.toNat)

namespace TcpTransport

/-- The bytes that `send` writes to a connection. -/
def send (order : ByteOrder) (packet : Packet) : List Byte :=
  let size := BitVec.ofNat 32 packet.payload.length
  order.encode32 size ++ packet.header.encode order ++
    if 0 < size then packet.payload.take size.toInt.toNat else []

/-- `receive` on a connection that was accepted from the client. -/
def receive (order : ByteOrder) (client : Endpoint) (stream : List Byte) : Option (Endpoint × Packet) :=
  let (sizeBytes, stream) := recv stream 4
  if sizeBytes.length ≤ 0 then none
  else
    -- A short read leaves the other bytes of the size zero.
    let payloadSize := order.decode32 (sizeBytes ++ List.replicate (4 - sizeBytes.length) 0)
    let (headerBytes, stream) := recv stream PacketHeader.size
    if headerBytes.length ≤ 0 then none
    else if headerBytes.length ≠ PacketHeader.size then none
    else
      let header := PacketHeader.decode order headerBytes
      if 0 < payloadSize then
        let (body, _) := recv stream payloadSize.toInt
        if body.length ≤ 0 ∨ BitVec.ofNat 32 body.length ≠ payloadSize then none
        else some (client, { header, payload := body })
      else some (client, { header, payload := [] })

variable {order : ByteOrder} {client : Endpoint} {packet : Packet} {stream : List Byte}

/-- A stream that ends before the payload is refused by the length of its header: what is
left after a short size is empty. -/
theorem receive_short (short : stream.length < 4 + PacketHeader.size) : receive order client stream = none := by
  have header : (recv (recv stream 4).2 PacketHeader.size).1.length < PacketHeader.size := by
    have four : (4 : Int).toNat = 4 := rfl
    simp only [recv, four, Int.toNat_natCast, List.length_take, List.length_drop]
    unfold PacketHeader.size at short ⊢
    omega
  simp only [receive]
  split
  · rfl
  · split
    · rfl
    · rw [if_pos (Nat.ne_of_lt header)]

theorem receive_framed {size : BitVec 32} {header : PacketHeader} {body : List Byte}
    (framed : stream = order.encode32 size ++ header.encode order ++ body) :
    receive order client stream =
      if 0 < size then
        if (body.take size.toInt.toNat).length ≤ 0 ∨ BitVec.ofNat 32 (body.take size.toInt.toNat).length ≠ size then none
        else some (client, { header, payload := body.take size.toInt.toNat })
      else some (client, { header, payload := [] }) := by
  have sizeBytes : recv stream 4 = (order.encode32 size, header.encode order ++ body) := by
    have four : (4 : Int).toNat = (order.encode32 size).length := by simp
    rw [framed, recv, four, List.append_assoc, List.take_left, List.drop_left]
  have headerBytes : recv (header.encode order ++ body) PacketHeader.size = (header.encode order, body) := by
    have sixteen : ((PacketHeader.size : Nat) : Int).toNat = (header.encode order).length := by simp
    rw [recv, sixteen, List.take_left, List.drop_left]
  have whole : order.decode32 (order.encode32 size ++ List.replicate (4 - (order.encode32 size).length) 0) = size := by
    simp [ByteOrder.decode32_encode32]
  simp only [receive, sizeBytes]
  rw [if_neg (by simp), whole]
  simp only [headerBytes, PacketHeader.decode_encode]
  rw [if_neg (by simp [PacketHeader.size]), if_neg (by simp)]
  rfl

theorem toInt_length (short : packet.payload.length < 2 ^ 31) :
    (BitVec.ofNat 32 packet.payload.length).toInt.toNat = packet.payload.length := by
  have value : (BitVec.ofNat 32 packet.payload.length).toNat = packet.payload.length := by
    rw [BitVec.toNat_ofNat]
    exact Nat.mod_eq_of_lt (by omega)
  rw [BitVec.toInt_eq_toNat_of_lt (by omega), value]
  rfl

theorem send_framed (short : packet.payload.length < 2 ^ 31) :
    send order packet = order.encode32 (BitVec.ofNat 32 packet.payload.length) ++ packet.header.encode order ++
      packet.payload := by
  simp only [send]
  congr 1
  split
  · rw [toInt_length short, List.take_length]
  · next zero =>
      have none : packet.payload.length = 0 := by
        rw [BitVec.lt_def, BitVec.toNat_ofNat, Nat.mod_eq_of_lt (by omega)] at zero
        simpa using zero
      exact (List.eq_nil_of_length_eq_zero none).symm

/-- What `send` writes is read back, and no part of it that ends early is. -/
theorem receive_send (order : ByteOrder) (client : Endpoint) (packet : Packet)
    (short : packet.payload.length < 2 ^ 31) :
    receive order client (send order packet) = some (client, packet) ∧
      ∀ stream, stream <+: send order packet → stream ≠ send order packet → receive order client stream = none := by
  have value : (BitVec.ofNat 32 packet.payload.length).toNat = packet.payload.length := by
    rw [BitVec.toNat_ofNat]
    exact Nat.mod_eq_of_lt (by omega)
  have positive : 0 < BitVec.ofNat 32 packet.payload.length ↔ 0 < packet.payload.length := by
    rw [BitVec.lt_def, value]
    simp
  constructor
  · rw [receive_framed (send_framed short), toInt_length short, List.take_length]
    by_cases some : 0 < packet.payload.length
    · have complete : ¬(packet.payload.length ≤ 0 ∨
          BitVec.ofNat 32 packet.payload.length ≠ BitVec.ofNat 32 packet.payload.length) := by
        rintro (empty | differs)
        · omega
        · exact differs rfl
      rw [if_pos (positive.mpr some), if_neg complete]
    · have none : packet.payload = [] := List.eq_nil_of_length_eq_zero (by omega)
      rw [if_neg (fun size => some (positive.mp size))]
      obtain ⟨header, payload⟩ := packet
      cases none
      rfl
  · intro stream part strict
    by_cases headed : stream.length < 4 + PacketHeader.size
    · exact receive_short headed
    · -- The stream breaks off in the payload.
      obtain ⟨rest, whole⟩ := part
      rw [send_framed short] at whole
      have head : (order.encode32 (BitVec.ofNat 32 packet.payload.length) ++ packet.header.encode order).length =
          4 + PacketHeader.size := by
        simp
      obtain ⟨body, framed, split⟩ : ∃ body, stream =
          order.encode32 (BitVec.ofNat 32 packet.payload.length) ++ packet.header.encode order ++ body ∧
          packet.payload = body ++ rest := by
        rcases List.append_eq_append_iff.mp whole with ⟨middle, longer, payload⟩ | ⟨body, framed, payload⟩
        · have none : middle = [] := by
            apply List.eq_nil_of_length_eq_zero
            rw [longer, List.length_append] at head
            omega
          rw [none, List.append_nil] at longer
          rw [none, List.nil_append] at payload
          exact ⟨[], by rw [longer, List.append_nil], by rw [payload, List.nil_append]⟩
        · exact ⟨body, framed, payload⟩
      have missing : body.length < packet.payload.length := by
        rw [split, List.length_append, Nat.lt_add_right_iff_pos, List.length_pos_iff]
        rintro rfl
        apply strict
        rw [send_framed short, framed, split, List.append_nil]
      have differs : BitVec.ofNat 32 body.length ≠ BitVec.ofNat 32 packet.payload.length := by
        intro same
        have sizes := congrArg BitVec.toNat same
        rw [value, BitVec.toNat_ofNat, Nat.mod_eq_of_lt (by omega)] at sizes
        omega
      rw [receive_framed framed, toInt_length short, List.take_of_length_le missing.le,
        if_pos (positive.mpr (by omega)), if_pos (.inr differs)]

end TcpTransport

theorem TcpTransport.receive_send_small : ∃ packet : Packet, packet.payload = [1, 2, 3] ∧
    TcpTransport.receive .bigEndian ⟨1, 2⟩ (TcpTransport.send .bigEndian packet) = some (⟨1, 2⟩, packet) :=
  ⟨{ header := { sequence := 7, channel := 3, guarantee := .reliable }, payload := [1, 2, 3] }, rfl,
    (TcpTransport.receive_send _ _ _ (by decide)).1⟩

theorem TcpTransport.length_send (order : ByteOrder) {packet : Packet} (short : packet.payload.length < 2 ^ 31) :
    (send order packet).length = 4 + PacketHeader.size + packet.payload.length := by
  rw [send_framed short]
  simp [Nat.add_assoc]

theorem TcpTransport.receive_take {packet : Packet} (short : packet.payload.length < 2 ^ 31) (order : ByteOrder)
    (client : Endpoint) (count : Nat) :
    receive order client ((send order packet).take count) =
      if (send order packet).length ≤ count then some (client, packet) else none := by
  have value : (BitVec.ofNat 32 packet.payload.length).toNat = packet.payload.length := by
    rw [BitVec.toNat_ofNat]
    exact Nat.mod_eq_of_lt (by omega)
  have positive : 0 < BitVec.ofNat 32 packet.payload.length ↔ 0 < packet.payload.length := by
    rw [BitVec.lt_def, value]
    simp
  have length := length_send order short
  by_cases headed : count < 4 + PacketHeader.size
  · rw [if_neg (by omega), receive_short]
    rw [List.length_take]
    omega
  · have head : (order.encode32 (BitVec.ofNat 32 packet.payload.length) ++ packet.header.encode order).length =
        4 + PacketHeader.size := by
      simp
    have framed : (send order packet).take count = order.encode32 (BitVec.ofNat 32 packet.payload.length) ++
        packet.header.encode order ++ packet.payload.take (count - (4 + PacketHeader.size)) := by
      rw [send_framed short, List.take_append, head, List.take_of_length_le (by omega)]
    rw [receive_framed framed, toInt_length short, List.take_take]
    by_cases complete : (send order packet).length ≤ count
    · have whole : min packet.payload.length (count - (4 + PacketHeader.size)) = packet.payload.length := by omega
      rw [if_pos complete, whole, List.take_length]
      by_cases some : 0 < packet.payload.length
      · have accepted : ¬(packet.payload.length ≤ 0 ∨
            BitVec.ofNat 32 packet.payload.length ≠ BitVec.ofNat 32 packet.payload.length) := by
          rintro (empty | differs)
          · omega
          · exact differs rfl
        rw [if_pos (positive.mpr some), if_neg accepted]
      · have none : packet.payload = [] := List.eq_nil_of_length_eq_zero (by omega)
        rw [if_neg fun size => some (positive.mp size)]
        obtain ⟨header, payload⟩ := packet
        cases none
        rfl
    · -- The stream breaks off in the payload.
      have missing : (packet.payload.take (min packet.payload.length (count - (4 + PacketHeader.size)))).length <
          packet.payload.length := by
        rw [List.length_take]
        omega
      have differs : BitVec.ofNat 32 (packet.payload.take
          (min packet.payload.length (count - (4 + PacketHeader.size)))).length ≠
            BitVec.ofNat 32 packet.payload.length := by
        intro same
        have sizes := congrArg BitVec.toNat same
        rw [value, BitVec.toNat_ofNat, Nat.mod_eq_of_lt (by omega)] at sizes
        omega
      rw [if_pos (positive.mpr (by omega)), if_pos (.inr differs), if_neg complete]

/-- The sizes of the longest UDP payload and of the receive buffer. -/
def maxDatagram : Nat := 65507

namespace UdpTransport

def bufferSize : Nat := 1500

/-- The datagram that `send` hands to `sendto`, which refuses one that is too long. -/
def send (order : ByteOrder) (packet : Packet) : Option (List Byte) :=
  let buffer := packet.header.encode order ++ packet.payload
  if buffer.length ≤ maxDatagram then some buffer else none

/-- `receive` when a datagram is waiting: `recvfrom` copies what fits the buffer and discards
the rest. -/
def receive (order : ByteOrder) (source : Endpoint) (datagram : List Byte) : Option (Endpoint × Packet) :=
  let buffer := datagram.take bufferSize
  if buffer.length < PacketHeader.size then none
  else some (source,
    { header := .decode order (buffer.take PacketHeader.size), payload := buffer.drop PacketHeader.size })

theorem receive_framed (order : ByteOrder) (source : Endpoint) (packet : Packet) :
    receive order source (packet.header.encode order ++ packet.payload) =
      some (source, { packet with payload := packet.payload.take (bufferSize - PacketHeader.size) }) := by
  have length : (packet.header.encode order).length = PacketHeader.size := by simp
  have cut : (packet.header.encode order ++ packet.payload).take bufferSize =
      packet.header.encode order ++ packet.payload.take (bufferSize - PacketHeader.size) := by
    rw [List.take_append, length, List.take_of_length_le (by rw [length]; decide)]
  simp only [receive, cut]
  rw [if_neg (by simp), ← length, List.take_left, List.drop_left, PacketHeader.decode_encode]

/-- Every packet that fits a datagram is read back whole when it fits the buffer, and
shortened when it does not. -/
theorem receive_intact_iff (order : ByteOrder) (source : Endpoint) (packet : Packet) (datagram : List Byte)
    (sent : send order packet = some datagram) :
    (receive order source datagram = some (source, packet) ∨ receive order source datagram = none) ↔
      packet.payload.length ≤ 1484 := by
  have buffer : packet.header.encode order ++ packet.payload = datagram := by
    simp only [send] at sent
    split at sent
    · exact Option.some.inj sent
    · cases sent
  have room : bufferSize - PacketHeader.size = 1484 := rfl
  rw [← buffer, receive_framed, room]
  constructor
  · rintro (whole | nothing)
    · have same : packet.payload.take 1484 = packet.payload := by
        have packets := congrArg Prod.snd (Option.some.inj whole)
        exact congrArg Packet.payload packets
      have lengths := congrArg List.length same
      rw [List.length_take] at lengths
      omega
    · cases nothing
  · intro fits
    left
    rw [List.take_of_length_le fits]

theorem receive_intact_four :
    receive .littleEndian ⟨1, 2⟩ (PacketHeader.encode .littleEndian {} ++ [1, 2, 3, 4]) =
        some (⟨1, 2⟩, { payload := [1, 2, 3, 4] }) ∨
      receive .littleEndian ⟨1, 2⟩ (PacketHeader.encode .littleEndian {} ++ [1, 2, 3, 4]) = none :=
  (receive_intact_iff .littleEndian ⟨1, 2⟩ { payload := [1, 2, 3, 4] } _ rfl).mpr (by decide)

/-- A payload of 1485 bytes, which fits a datagram, loses its last byte. -/
theorem receive_shortened : ∃ packet : Packet, packet.payload.length = 1485 ∧
    send .littleEndian packet = some (packet.header.encode .littleEndian ++ packet.payload) ∧
    receive .littleEndian ⟨1, 2⟩ (packet.header.encode .littleEndian ++ packet.payload) =
      some (⟨1, 2⟩, { packet with payload := List.replicate 1484 7 }) := by
  refine ⟨{ payload := List.replicate 1485 7 }, List.length_replicate, ?_, ?_⟩
  · unfold send
    rw [if_pos]
    rw [List.length_append, PacketHeader.length_encode, List.length_replicate]
    decide
  · have room : bufferSize - PacketHeader.size = 1484 := rfl
    rw [receive_framed, room, List.take_replicate, Nat.min_eq_left (by decide)]

end UdpTransport

end SoulLib.Networking
