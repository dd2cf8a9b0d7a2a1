import MqttBroker.Bytes
import MqttBroker.Wire.Error
/-!
The units a packet body is written from. A body is a list of fields; its size is known before any
byte is written, and writing fails at the first field that has no written form.
-/

namespace MqttBroker

namespace Varint

/-- The largest value four base-128 digits can hold. -/
def limit : Nat := 268435455

/-- How many base-128 digits `n` takes; four for everything above three. -/
def size (n : Nat) : Nat :=
  if n ≤ 127 then 1 else if n ≤ 16383 then 2 else if n ≤ 2097151 then 3 else 4

/-- Up to `rounds` base-128 digits of `n`, the least significant first, each but the last with the
continuation bit. -/
def digits : Nat → Nat → Bytes
  | 0, _ => []
  | rounds + 1, n =>
    if n < 128 then [UInt8.ofNat n]
    else UInt8.ofNat (n % 128 + 128) :: digits rounds (n / 128)

def encode (n : Nat) : Bytes := digits 4 n

end Varint

inductive Field where
  | byte (value : UInt8)
  | word (value : UInt16)
  | long (value : UInt32)
  | varint (value : Nat)
  /-- Bytes behind a two-byte length. -/
  | binary (content : Bytes)
  /-- Bytes with no length of their own. -/
  | raw (content : Bytes)
deriving DecidableEq

namespace Field

/-- The longest content a two-byte length can announce. -/
def binaryLimit : Nat := 65535

/-- The high byte first. -/
def wordBytes (n : UInt16) : Bytes := [UInt8.ofNat (n.toNat / 256), UInt8.ofNat n.toNat]

/-- The high byte first. -/
def longBytes (n : UInt32) : Bytes :=
  [UInt8.ofNat (n.toNat / 16777216), UInt8.ofNat (n.toNat / 65536), UInt8.ofNat (n.toNat / 256),
    UInt8.ofNat n.toNat]

/-- What bytes behind a two-byte length take. -/
def prefixedSize (content : Bytes) : Nat := 2 + content.length

def size : Field → Nat
  | byte _ => 1
  | word _ => 2
  | long _ => 4
  | varint n => Varint.size n
  | binary content => 2 + content.length
  | raw content => content.length

def write : Field → Except EncodeError Bytes
  | byte v => .ok [v]
  | word v => .ok (wordBytes v)
  | long v => .ok (longBytes v)
  | varint n => if n ≤ Varint.limit then .ok (Varint.encode n) else .error (.packetTooLarge n)
  | binary content =>
    if content.length ≤ binaryLimit then
      .ok (wordBytes (UInt16.ofNat content.length) ++ content)
    else .error (.fieldTooLong content.length)
  | raw content => .ok content

def totalSize : List Field → Nat
  | [] => 0
  | field :: rest => field.size + totalSize rest

/-- What the parts take up together if each takes up `size` bytes. -/
def sumOver {α : Type} (size : α → Nat) : List α → Nat
  | [] => 0
  | part :: rest => size part + sumOver size rest

/-- Writes the fields in order; the first one that cannot be written decides the error. -/
def writeAll : List Field → Except EncodeError Bytes
  | [] => .ok []
  | f :: fs => do
    let head ← f.write
    let tail ← writeAll fs
    return head ++ tail

end Field

end MqttBroker
