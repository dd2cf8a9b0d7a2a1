import MqttBroker.Configuration.Value
import MqttBroker.Text.Scan
/-! Settings files in JSON. -/

namespace MqttBroker

namespace JsonFile

def isBlank (c : Char) : Bool := c = ' ' || c = '\t' || c = '\n' || c = '\r'

def blanks : Scan Unit := do
  let _ ← Scan.span isBlank

/-- The character after `\u`. Characters beyond 16 bits take a second escape. -/
def unicodeEscape : Scan Char := do
  let high ← Scan.hex 4 0
  if 0xD800 ≤ high && high < 0xDC00 then
    Scan.expect '\\'
    Scan.expect 'u'
    let low ← Scan.hex 4 0
    if 0xDC00 ≤ low && low < 0xE000 then
      Scan.charOf (0x10000 + (high - 0xD800) * 0x400 + (low - 0xDC00))
    else failure
  else Scan.charOf high

def escape : Scan Char := do
  match ← Scan.next with
  | '"' => return '"'
  | '\\' => return '\\'
  | '/' => return '/'
  | 'b' => return '\x08'
  | 'f' => return '\x0c'
  | 'n' => return '\n'
  | 'r' => return '\r'
  | 't' => return '\t'
  | 'u' => unicodeEscape
  | _ => failure

/-- The rest of a string, up to its closing quote. -/
def stringRest : Scan String := do
  let chars ← Scan.collect do
    match ← Scan.next with
    | '"' => return none
    | '\\' => some <$> escape
    | c => if c < ' ' then failure else return some c
  return String.ofList chars

/-- Digits without a leading zero. -/
def wholeDigits : Scan (List Char) := do
  let digits ← Scan.span Char.isDigit
  if digits.isEmpty || (digits.head? = some '0' && digits.length != 1) then failure
  else return digits

/-- A letter and the digits after it, if the letter comes next. -/
def optionalDigits (accepted : Char → Bool) (sign : Bool) : Scan (List Char) := do
  match ← Scan.peek? with
  | none => return []
  | some c =>
    if !accepted c then return []
    let _ ← Scan.next
    let signs ← if sign then Scan.span (fun c => c = '+' || c = '-') else pure []
    let digits ← Scan.span Char.isDigit
    if digits.isEmpty || 1 < signs.length then failure else return c :: signs ++ digits

/-- Digits taken into a number up to the first that leaves the unsigned 64-bit range, and how many
are left. -/
def takeDigits : Nat → List Char → Nat × Nat
  | n, [] => (n, 0)
  | n, c :: rest =>
    let more := 10 * n + (c.toNat - '0'.toNat)
    if WholeNumber.unsignedLimit < more then (n, rest.length + 1) else takeDigits more rest

/-- The largest power of ten that is a double. -/
def largestPower : Nat := 308

/-- A double times a power of ten. Two of the largest powers bring any 64-bit number down to zero,
so that there are no more than two steps. A number too large for a double is refused. -/
def scale (x : Binary64) (exponent : Int) : Option Binary64 :=
  if x.isZero then some x
  else if 0 ≤ exponent then
    if largestPower < exponent then none
    else match x.scaleUp exponent.toNat with
      | .infinite _ => none
      | y => some y
  else
    let places := (-exponent).toNat
    let first := min places largestPower
    some ((x.scaleDown first).scaleDown (min (places - first) largestPower))

/-- Whole numbers within the signed or the unsigned 64-bit range are integers, and all others
doubles. The digits of a double count as far as they make up an unsigned 64-bit number, which is
rounded before it is scaled. -/
def number : Scan ConfigValue := do
  let negative ← Scan.accept '-'
  let whole ← wholeDigits
  let places ← optionalDigits (· = '.') false
  let exponent ← optionalDigits (fun c => c = 'e' || c = 'E') true
  let (digits, skipped) := takeDigits 0 whole
  let isWhole := places.isEmpty && exponent.isEmpty && skipped = 0
  if isWhole && !negative then return .integer digits
  else if isWhole && digits != 0 && WholeNumber.fitsSigned (-digits) then return .integer (-digits)
  else
    let (digits, left) := takeDigits digits places.tail
    let taken := places.tail.length - left
    let power := (WholeNumber.ofText? exponent.tail).getD 0 + skipped - taken
    .real <$> StateT.lift (scale (Binary64.ofDecimal negative digits 0) power)

/-- The rest of a list behind its opening bracket. -/
def listRest {α : Type} (item : Scan α) (close : Char) : Scan (List α) := do
  blanks
  if ← Scan.accept close then return []
  let first ← item
  let more ← Scan.collect do
    blanks
    if ← Scan.accept close then return none
    Scan.expect ','
    some <$> item
  return first :: more

def member (value : Scan ConfigValue) : Scan (String × ConfigValue) := do
  blanks
  Scan.expect '"'
  let key ← stringRest
  blanks
  Scan.expect ':'
  return (key, ← value)

def word (text : String) (v : ConfigValue) : Scan ConfigValue := do
  if ← Scan.acceptText text then return v else failure

/-- A value with at most `depth` arrays and objects inside one another. Of members with one key the
last counts. -/
def value (depth : Nat) : Scan ConfigValue := do
  blanks
  match ← Scan.peek? with
  | some '"' => do
    let _ ← Scan.next
    return .text (← stringRest)
  | some 't' => word "true" (.bool true)
  | some 'f' => word "false" (.bool false)
  | some 'n' => word "null" .nothing
  | some '[' => match depth with
    | 0 => failure
    | depth + 1 => do
      let _ ← Scan.next
      return .array (← listRest (value depth) ']')
  | some '{' => match depth with
    | 0 => failure
    | depth + 1 => do
      let _ ← Scan.next
      let members ← listRest (member (value depth)) '}'
      return .table (members.foldl (fun entries (key, v) => ConfigValue.assign key v entries) [])
  | _ => number

/-- How deep a file may be nested. -/
def maxDepth : Nat := 127

/-- The entries of the object that a file consists of. -/
def parse? (text : String) : Option ConfigValue.Entries := do
  let document : Scan ConfigValue := do
    let v ← value maxDepth
    blanks
    return v
  match ← document.whole? text.toList with
  | .table entries => some entries
  | _ => none

end JsonFile

end MqttBroker
