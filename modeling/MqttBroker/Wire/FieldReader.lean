import MqttBroker.Wire.Source
/-!
Reading the units of a packet body from the front of a source. Running out of bytes is the error
`truncated`: a body is read only once it has arrived whole.
-/

namespace MqttBroker

/-- Takes a value off the front of a source. -/
abbrev FieldReader (σ : Type) := StateT σ (Except DecodeError)

namespace FieldReader

variable {σ : Type} [Source σ] {α : Type}

def byte : FieldReader σ UInt8 := Source.byte

/-- Exactly `n` bytes. -/
def take (n : Nat) : FieldReader σ Bytes := Source.take n

def remaining : FieldReader σ Nat := fun s => .ok (Source.remaining s, s)

/-- All that is left. -/
def rest : FieldReader σ Bytes := do
  let n ← remaining
  take n

/-- Stops with `e` if `bad` holds. -/
def refuseIf (bad : Bool) (e : DecodeError) : FieldReader σ Unit := if bad then throw e else pure ()

/-- `a` at the end of the source, otherwise what `r` finds. -/
def unlessAtEnd (a : α) (r : FieldReader σ α) : FieldReader σ α := do
  let n ← remaining
  if n = 0 then pure a else r

/-- Reads a window of the next `n` bytes and goes on behind it. -/
def within (n : Nat) (r : FieldReader σ α) : FieldReader σ α := fun s => do
  let (_, behind) ← take n s
  let (a, _) ← r (Source.window n s)
  return (a, behind)

def word : FieldReader σ UInt16 := do
  let hi ← byte
  let lo ← byte
  return UInt16.ofNat (hi.toNat * 256 + lo.toNat)

def long : FieldReader σ UInt32 := do
  let hi ← word
  let lo ← word
  return UInt32.ofNat (hi.toNat * 65536 + lo.toNat)

/-- Base-128 digits, the least significant first, until one without the continuation bit; at most
`rounds` of them. The next digit goes `shift` bits up, above the bits that `value` has. -/
def varintFrom : Nat → UInt32 → UInt32 → FieldReader σ Nat
  | 0, _, _ => throw .malformedRemainingLength
  | rounds + 1, shift, value => do
    let b ← byte
    let value := value ||| (b &&& 0x7F).toUInt32 <<< shift
    if b &&& 0x80 = 0 then return value.toNat else varintFrom rounds (shift + 7) value

def varint : FieldReader σ Nat := varintFrom 4 0 0

/-- Bytes behind a two-byte length. -/
def binary : FieldReader σ Bytes := do
  let n ← word
  take n.toNat

/-- Length-prefixed bytes that must be UTF-8, kept as bytes. -/
def utf8 : FieldReader σ Bytes := do
  let raw ← binary
  refuseIf (!raw.isText) .invalidUtf8
  return raw

/-- Length-prefixed UTF-8 read as text. -/
def text : FieldReader σ String := do
  let raw ← binary
  match raw.toText? with
  | some s => return s
  | none => throw .invalidUtf8

/-- Items until nothing is left. Every item takes at least one byte, so as many rounds as there are
bytes are enough. -/
def many (item : FieldReader σ α) : FieldReader σ (List α) := do
  let n ← remaining
  go n []
where
  go : Nat → List α → FieldReader σ (List α)
    | 0, found => do
      let n ← remaining
      if n = 0 then return found.reverse else throw .truncated
    | rounds + 1, found => do
      let n ← remaining
      if n = 0 then return found.reverse
      else
        let a ← item
        go rounds (a :: found)

end FieldReader

end MqttBroker
