/-! Sets of characters. -/

namespace MqttBroker

/-- The first and last codes of runs of characters. -/
abbrev CharRanges := List (Nat × Nat)

def CharRanges.contains (ranges : CharRanges) (c : Char) : Bool :=
  ranges.any fun (first, last) => first ≤ c.toNat && c.toNat ≤ last

end MqttBroker
