/-! Whole numbers in decimal digits, and the 64-bit ranges. -/

namespace MqttBroker

namespace WholeNumber

/-- The largest unsigned 64-bit number. -/
def unsignedLimit : Nat := 18446744073709551615

/-- Is the number in the signed 64-bit range? -/
def fitsSigned (n : Int) : Bool := -9223372036854775808 ≤ n && n ≤ 9223372036854775807

def ofDigits (digits : List Char) : Nat :=
  digits.foldl (fun n c => 10 * n + (c.toNat - '0'.toNat)) 0

/-- A number with an optional sign, of any size. -/
def ofText? (text : List Char) : Option Int :=
  let (negative, digits) := match text with
    | '-' :: digits => (true, digits)
    | '+' :: digits => (false, digits)
    | digits => (false, digits)
  if digits.isEmpty || !digits.all Char.isDigit then none
  else some (if negative then -(ofDigits digits : Int) else ofDigits digits)

/-- A number in the signed 64-bit range. -/
def signed? (text : List Char) : Option Int := (ofText? text).filter fitsSigned

/-- A number in the unsigned 64-bit range. Not even zero may have a minus sign. -/
def unsigned? (text : List Char) : Option Nat := do
  let n ← ofText? text
  if text.head? = some '-' || unsignedLimit < n then none else some n.toNat

end WholeNumber

end MqttBroker
