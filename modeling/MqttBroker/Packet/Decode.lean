import MqttBroker.Packet.Basic
import MqttBroker.Wire.Cursor
/-!
Packets from the front of a byte sequence that arrives in pieces. Decoding has three outcomes: a
packet with the number of bytes it took, a request for more bytes, or an error that no further
bytes can mend.
-/

namespace MqttBroker

/-- The first byte of a packet and the length that follows it. -/
structure Header where
  first : UInt8
  remaining : Nat
  /-- The bytes the header itself takes. -/
  size : Nat
deriving DecidableEq

namespace Header

/-- The remaining length, digit by digit: `place` is the weight of the next digit, `value` what the
digits before it add up to, `used` how many bytes the header has taken. -/
def readLength {σ : Type} [Source σ] :
    Nat → Nat → Nat → Nat → σ → Except DecodeError (Option (Nat × Nat × σ))
  | 0, _, _, _, _ => .error .malformedRemainingLength
  | rounds + 1, place, value, used, s =>
    match Source.byte s with
    | .error _ => .ok none
    | .ok (b, left) =>
      let value' := value + b.toNat % 128 * place
      if b < 128 then .ok (some (value', used + 1, left))
      else readLength rounds (place * 128) value' (used + 1) left

/-- The header at the front of `s` and what follows it, or `none` while it is incomplete. Type 0 is
refused at once. -/
def read? {σ : Type} [Source σ] (s : σ) : Except DecodeError (Option (Header × σ)) :=
  match Source.byte s with
  | .error _ => .ok none
  | .ok (first, s) =>
    if first < 16 then .error (.invalidPacketType 0)
    else do
      match ← readLength 4 1 0 1 s with
      | none => return none
      | some (remaining, size, left) => return some ({ first, remaining, size }, left)

/-- The size of the whole packet, if it is within the limit. -/
def total (h : Header) (limit : Nat) : Except DecodeError Nat :=
  let size := h.size + h.remaining
  if limit < size then .error (.packetTooLarge size limit) else .ok size

def kindCode (h : Header) : Nat := h.first.toNat / 16

def flags (h : Header) : UInt8 := UInt8.ofNat (h.first.toNat % 16)

def kind (h : Header) : Except DecodeError Kind :=
  match Kind.ofCode? h.kindCode with
  | some kind => .ok kind
  | none => .error (.invalidPacketType h.kindCode)

end Header

namespace Packet

/-- The size of the packet at the front of `b`, known as soon as its header is complete. -/
def frameLength (b : Bytes) (limit : Nat) : Except DecodeError (Option Nat) := do
  match ← Header.read? b with
  | none => return none
  | some (h, _) => some <$> h.total limit

def checkFlags (kind : Kind) (flags : UInt8) : Except DecodeError Unit :=
  match kind.fixedFlags? with
  | none => .ok ()
  | some expected => if flags = expected then .ok () else .error (.invalidFlags kind flags)

/-- The packet at the front of `s` and the number of bytes it takes. Its body is read from a window
of the length the header announces. -/
def decodeFrom {σ : Type} [Source σ] (s : σ) (level : Level) (limit : Nat) :
    Except DecodeError (Option (Packet × Nat)) := do
  match ← Header.read? s with
  | none => return none
  | some (h, s) =>
    let size ← h.total limit
    let kind ← h.kind
    checkFlags kind h.flags
    if Source.remaining s < h.remaining then return none
    else
      let (packet, left) ← readBody kind h.flags level (Source.window h.remaining s)
      if Source.remaining left = 0 then return some (packet, size)
      else throw (.trailingBytes (Source.remaining left))

/-- The packet at the front of the segments put together. -/
def decode (segments : List Bytes) (level : Level) (limit : Nat) :
    Except DecodeError (Option (Packet × Nat)) :=
  decodeFrom (Cursor.start segments) level limit

/-- Packet after packet from the front of `b`, up to the first outcome that is none. With the
outcomes comes what is left of `b`. A packet takes at least two bytes, so `rounds` may be the
length of `b`. -/
def decodeRounds (level : Level) (limit : Nat) :
    Nat → Bytes → List (Except DecodeError (Option (Packet × Nat))) × Bytes
  | 0, b => ([], b)
  | rounds + 1, b =>
    if b.isEmpty then ([], b)
    else match decode [b] level limit with
      | .ok (some (packet, size)) =>
        let (more, left) := decodeRounds level limit rounds (b.drop size)
        (.ok (some (packet, size)) :: more, left)
      | outcome => ([outcome], b)

def decodeAll (level : Level) (limit : Nat) (b : Bytes) :
    List (Except DecodeError (Option (Packet × Nat))) × Bytes :=
  decodeRounds level limit b.length b

end Packet

end MqttBroker
