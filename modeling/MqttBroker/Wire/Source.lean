import MqttBroker.Bytes
import MqttBroker.Wire.Error
/-!
What fields are read from. A byte string is the plain case; a window over segments is another.
-/

namespace MqttBroker

/-- Hands out bytes from the front. Running out of them is the error `truncated`. -/
class Source (σ : Type) where
  /-- How many bytes can still be read. -/
  remaining : σ → Nat
  byte : σ → Except DecodeError (UInt8 × σ)
  /-- Exactly `n` bytes. -/
  take (n : Nat) : σ → Except DecodeError (Bytes × σ)
  /-- The same place with at most `n` bytes to read. -/
  window (n : Nat) : σ → σ

instance : Source Bytes where
  remaining := List.length
  byte
    | [] => .error .truncated
    | b :: rest => .ok (b, rest)
  take n b :=
    let front := b.take n
    if front.length = n then .ok (front, b.drop n) else .error .truncated
  window n b := b.take n

namespace Source

@[simp] theorem remaining_bytes (b : Bytes) : remaining b = b.length := rfl

@[simp] theorem window_bytes (n : Nat) (b : Bytes) : window n b = b.take n := rfl

@[simp] theorem byte_nil : byte ([] : Bytes) = .error .truncated := rfl

@[simp] theorem byte_cons (b : UInt8) (rest : Bytes) : byte (b :: rest) = .ok (b, rest) := rfl

theorem take_of_le {n : Nat} {b : Bytes} (h : n ≤ b.length) :
    take n b = .ok (b.take n, b.drop n) :=
  if_pos (by rw [List.length_take]; omega)

theorem take_of_lt {n : Nat} {b : Bytes} (h : b.length < n) : take n b = .error .truncated :=
  if_neg (by rw [List.length_take]; omega)

end Source

end MqttBroker
