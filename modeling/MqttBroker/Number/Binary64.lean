import MqttBroker.Number.Whole
/-!
Double precision numbers, read from decimal fractions and printed as such. The only arithmetic is
that with powers of ten.
-/

namespace MqttBroker

inductive Binary64 where
  /-- The number `± mantissa * 2 ^ exponent`. -/
  | finite (negative : Bool) (mantissa : Nat) (exponent : Int)
  | infinite (negative : Bool)
  | nan
deriving DecidableEq

namespace Binary64

/-- The quotient nearest to `n / d`, and the even one of two that are. -/
def roundedQuotient (n d : Nat) : Nat :=
  let q := n / d
  let twice := 2 * (n % d)
  if twice < d then q
  else if d < twice then q + 1
  else q + q % 2

/-- The fraction `value * base ^ exponent` as numerator and denominator. -/
def fraction (base value : Nat) (exponent : Int) : Nat × Nat :=
  if 0 ≤ exponent then (value * Nat.pow base exponent.toNat, 1)
  else (value, Nat.pow base (-exponent).toNat)

/-- The fraction `n / d` in units of `base ^ exponent`, as numerator and denominator. -/
def inUnits (base n d : Nat) (exponent : Int) : Nat × Nat :=
  if 0 ≤ exponent then (n, d * Nat.pow base exponent.toNat)
  else (n * Nat.pow base (-exponent).toNat, d)

/-- Mantissas are below `2 ^ 53`. -/
def mantissaBound : Nat := 9007199254740992

/-- The double nearest to `n / d`, with no exponent below that of the smallest double. -/
def ofFraction (negative : Bool) (n d : Nat) : Binary64 :=
  if n = 0 then finite negative 0 0
  else
    let low : Int := max ((n.log2 : Int) - d.log2 - 53) (-1074)
    let (n', d') := inUnits 2 n d low
    let exponent := if n' / d' < mantissaBound then low else low + 1
    let (n', d') := inUnits 2 n d exponent
    let mantissa := roundedQuotient n' d'
    let (mantissa, exponent) :=
      if mantissa = mantissaBound then (mantissaBound / 2, exponent + 1) else (mantissa, exponent)
    if 971 < exponent then infinite negative else finite negative mantissa exponent

/-- The double nearest to `± value * 10 ^ exponent`. Far out of range the power is not computed. -/
def ofDecimal (negative : Bool) (value : Nat) (exponent : Int) : Binary64 :=
  let magnitude := exponent + ((Nat.toDigits 10 value).length : Int)
  if value = 0 || magnitude < -400 then finite negative 0 0
  else if 400 < magnitude then infinite negative
  else ofFraction negative (fraction 10 value exponent).1 (fraction 10 value exponent).2

/-- The double nearest to the product with the double nearest to `10 ^ power`. -/
def scaleUp (power : Nat) : Binary64 → Binary64
  | finite negative mantissa exponent => match ofDecimal false 1 power with
    | finite _ factor factorExponent =>
      let (n, d) := fraction 2 (mantissa * factor) (exponent + factorExponent)
      ofFraction negative n d
    | _ => infinite negative
  | x => x

/-- The double nearest to the quotient by the double nearest to `10 ^ power`. -/
def scaleDown (power : Nat) : Binary64 → Binary64
  | finite negative mantissa exponent => match ofDecimal false 1 power with
    | finite _ divisor divisorExponent =>
      let (n, d) := fraction 2 mantissa (exponent - divisorExponent)
      ofFraction negative n (d * divisor)
    | _ => finite negative 0 0
  | x => x

def isZero : Binary64 → Bool
  | finite _ mantissa _ => mantissa = 0
  | _ => false

/-- An exponent part: nothing, or `e` and a whole number. -/
def exponentPart? : List Char → Option Int
  | [] => some 0
  | e :: rest => if e = 'e' || e = 'E' then WholeNumber.ofText? rest else none

/-- A number without its sign: digits with or without a point, at least one digit in all, and
perhaps an exponent. The words for what is not finite are known in any case. -/
def ofUnsigned? (negative : Bool) (text : List Char) : Option Binary64 :=
  let word := (String.ofList text).toLower
  if word = "inf" || word = "infinity" then some (infinite negative)
  else if word = "nan" then some nan
  else
    let (whole, rest) := text.span Char.isDigit
    let (places, rest) := match rest with
      | '.' :: rest => rest.span Char.isDigit
      | rest => ([], rest)
    if whole.isEmpty && places.isEmpty then none
    else (exponentPart? rest).map fun exponent =>
      ofDecimal negative (WholeNumber.ofDigits (whole ++ places)) (exponent - places.length)

def ofText? : List Char → Option Binary64
  | '-' :: text => ofUnsigned? true text
  | '+' :: text => ofUnsigned? false text
  | text => ofUnsigned? false text

/-- The nearest whole number, away from zero between two, kept within the unsigned 64-bit range.
What is no number counts as 0. -/
def toUnsigned : Binary64 → Nat
  | finite false mantissa exponent =>
    let (n, d) := fraction 2 mantissa exponent
    min ((2 * n + d) / (2 * d)) WholeNumber.unsignedLimit
  | infinite false => WholeNumber.unsignedLimit
  | _ => 0

/-- The multiple of `10 ^ exponent` nearest to the number among those that read back as it. -/
def shorten? (x : Binary64) (mantissa : Nat) (binaryExponent exponent : Int) : Option Nat :=
  let (n, d) := fraction 2 mantissa binaryExponent
  let (n, d) := inUnits 10 n d exponent
  let below := n / d
  let closer := if 2 * (n % d) < d then [below, below + 1] else [below + 1, below]
  closer.find? fun value => value != 0 && ofDecimal false value exponent == x

/-- The shortest decimal that reads back as the number, tried from large units to small ones. -/
def shortest (x : Binary64) (mantissa : Nat) (binaryExponent : Int) : Nat → Int → Nat × Int
  | 0, exponent => (0, exponent)
  | rounds + 1, exponent => match shorten? x mantissa binaryExponent exponent with
    | some value => (value, exponent)
    | none => shortest x mantissa binaryExponent rounds (exponent - 1)

/-- Digits with a point in their place and no exponent. -/
def positional (value : Nat) (exponent : Int) : String :=
  let digits := Nat.toDigits 10 value
  if 0 ≤ exponent then String.ofList (digits ++ List.replicate exponent.toNat '0')
  else
    let places := (-exponent).toNat
    let digits := List.replicate (places + 1 - digits.length) '0' ++ digits
    let whole := digits.length - places
    String.ofList (digits.take whole) ++ "." ++ String.ofList (digits.drop whole)

def toText : Binary64 → String
  | nan => "NaN"
  | infinite negative => if negative then "-inf" else "inf"
  | finite negative mantissa exponent =>
    let (value, places) :=
      if mantissa = 0 then (0, 0)
      else shortest (finite false mantissa exponent) mantissa exponent 660 310
    (if negative then "-" else "") ++ positional value places

end Binary64

end MqttBroker
