import Mathlib

/-!
# V3 — Codec — Packet

The MQTT 3.1.1 packets the sink originates, and the one check `Codec::encode` makes before it
writes a packet.  The packet variants are those the sink builds (`Publish`, `Subscribe`,
`Unsubscribe`, `PingRequest`); the rest of `codec::Packet` is produced only by
`decode::decode_packet`, which the framing modules take as a parameter.

Packet ids are `NonZeroU16`, a `UInt16` that carries its own proof of being non-zero, so an
`Ack` with id `0` cannot be built.  `NonZeroU16.new_ofNat` is the fact the sink's packet-id
allocation rests on: an index in `[1, 65535]` survives `idx as u16` and is non-zero.
-/

namespace ActixMqtt

/-- `std::num::NonZeroU16`. -/
structure NonZeroU16 where
  get : UInt16
  ne_zero : get ≠ 0
  deriving DecidableEq

/-- `NonZeroU16::new`. -/
def NonZeroU16.new (n : UInt16) : Option NonZeroU16 :=
  if h : n = 0 then none else some ⟨n, h⟩

/-- An index in `[1, 65535]` keeps its value through `idx as u16` and `NonZeroU16::new`. -/
theorem NonZeroU16.new_ofNat {idx : Nat} (h₁ : 1 ≤ idx) (h₂ : idx ≤ 65535) :
    ∃ p : NonZeroU16, NonZeroU16.new (UInt16.ofNat idx) = some p ∧ p.get.toNat = idx := by
  have hv : (UInt16.ofNat idx).toNat = idx := UInt16.toNat_ofNat_of_lt (show idx < 65536 by omega)
  have hne : UInt16.ofNat idx ≠ 0 := fun e => by rw [e] at hv; simp at hv; omega
  exact ⟨⟨_, hne⟩, dif_neg hne, hv⟩

/-- The message of `Option::unwrap` on `None`. -/
def unwrapNone : String := "called `Option::unwrap()` on a `None` value"

/-- `types::QoS`. -/
inductive QoS
  | atMostOnce
  | atLeastOnce
  | exactlyOnce
  deriving DecidableEq, Repr

/-- `codec::SubscribeReturnCode`. -/
inductive SubscribeReturnCode
  | success (qos : QoS)
  | failure
  deriving DecidableEq, Repr

/-- `codec::Publish`.  `topic` is a `ByteString`, `payload` the `Bytes` of the message. -/
structure Publish where
  dup : Bool
  retain : Bool
  qos : QoS
  topic : String
  packetId : Option NonZeroU16
  payload : List UInt8
  deriving DecidableEq

/-- `codec::Packet`, at the variants the sink pushes onto the outbound channel. -/
inductive Packet
  | publish (p : Publish)
  | subscribe (packetId : NonZeroU16) (topicFilters : List (String × QoS))
  | unsubscribe (packetId : NonZeroU16) (topicFilters : List String)
  | pingRequest
  deriving DecidableEq

/-- `error::EncodeError`. -/
inductive EncodeError
  | overMaxPacketSize
  | packetIdRequired
  deriving DecidableEq, Repr

/-- `error::DecodeError`. -/
inductive DecodeError
  | invalidProtocol
  | invalidLength
  | malformedPacket
  | unsupportedProtocolLevel
  | maxSizeExceeded
  | utf8
  deriving DecidableEq, Repr

/-- Modelled from the spec: `types::packet_type`, the first byte of each acknowledgement's
fixed header (packet type in the high nibble, §6), which is not in the repository's sources. -/
def PUBACK : UInt8 := 0x40

/-- Modelled from the spec: `types::packet_type::SUBACK` (§6). -/
def SUBACK : UInt8 := 0x90

/-- Modelled from the spec: `types::packet_type::UNSUBACK` (§6). -/
def UNSUBACK : UInt8 := 0xB0

/-- `Codec::encode`.  `encode::get_encoded_size` and `encode::encode`, which are not in the
repository's sources, are the parameters `getEncodedSize` and `encodeBody`; the bytes
`encodeBody` returns are appended to `dst`.  `content_size as u32` is `% 2^32`. -/
def Codec.encode (getEncodedSize : Packet → Nat)
    (encodeBody : Packet → Nat → Except EncodeError (List UInt8))
    (item : Packet) (dst : List UInt8) : Except EncodeError (List UInt8) := do
  if let .publish p := item then
    if (p.qos = .atLeastOnce ∨ p.qos = .exactlyOnce) ∧ p.packetId.isNone then
      throw .packetIdRequired
  let bytes ← encodeBody item (getEncodedSize item % 2 ^ 32)
  return dst ++ bytes

/-- A publish that needs a packet id carries one: `Codec::encode` refuses nothing else with
`PacketIdRequired`. -/
def Packet.HasRequiredId : Packet → Prop
  | .publish p => (p.qos = .atLeastOnce ∨ p.qos = .exactlyOnce) → p.packetId.isSome
  | _ => True

/-- On a packet that has its required id, `Codec::encode`'s check passes and it returns what
`encode::encode` does. -/
theorem Codec.encode_of_hasRequiredId (getEncodedSize encodeBody) {item : Packet}
    (h : item.HasRequiredId) (dst : List UInt8) :
    Codec.encode getEncodedSize encodeBody item dst =
      (dst ++ ·) <$> encodeBody item (getEncodedSize item % 2 ^ 32) := by
  cases item with
  | publish p =>
    have hid : ¬ ((p.qos = .atLeastOnce ∨ p.qos = .exactlyOnce) ∧ p.packetId.isNone) := by
      simp only [Packet.HasRequiredId] at h
      rintro ⟨hq, hn⟩
      cases e : p.packetId <;> simp_all
    simp only [Codec.encode, if_neg hid]
    cases encodeBody (.publish p) _ <;> rfl
  | _ => simp only [Codec.encode]; cases encodeBody _ _ <;> rfl

end ActixMqtt
