import MqttBroker.Wire.Error
/-!
Client ids that the broker makes up. Each is a UUID behind a prefix, so that a client is not likely
to pick one by chance.
-/

namespace MqttBroker

namespace AssignedId

def ofUuid (uuid : BitVec 128) : String := "auto-" ++ paddedDigits 16 32 uuid.toNat

/-- The version 4 UUID with these 122 free bits. Its version and variant take up the other six. -/
def version4 (bits : Nat) : BitVec 128 :=
  let (top, low) := (bits / 4611686018427387904, bits % 4611686018427387904)
  let (high, middle) := (top / 4096 % 281474976710656, top % 4096)
  .ofNat 128 ((((high * 16 + 4) * 4096 + middle) * 4 + 2) * 4611686018427387904 + low)

/-- An odd number near the golden section of all 122-bit numbers: its multiples are far apart. -/
def stride : Nat := 3286032320771919893214630779437692705

/-- UUIDs to run a broker with that is given no source of its own. -/
def spread (n : Nat) : BitVec 128 := version4 (n * stride)

end AssignedId

end MqttBroker
