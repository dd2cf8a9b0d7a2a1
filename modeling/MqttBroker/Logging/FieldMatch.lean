import MqttBroker.Logging.Pattern
import MqttBroker.Number.Binary64
/-! Fields of spans that a log directive asks for, and the values they are to have. -/

namespace MqttBroker

inductive FieldValue where
  | bool (b : Bool)
  | unsigned (n : Nat)
  | signed (n : Int)
  | real (x : Binary64)
  /-- Any text that the regular expression matches. -/
  | pattern (text : String)
deriving DecidableEq

namespace FieldValue

/-- The first of these that the text is. -/
def ofText? (text : List Char) : Option FieldValue :=
  if text = ['t', 'r', 'u', 'e'] then some (bool true)
  else if text = ['f', 'a', 'l', 's', 'e'] then some (bool false)
  else match WholeNumber.unsigned? text, WholeNumber.signed? text, Binary64.ofText? text with
    | some n, _, _ => some (unsigned n)
    | none, some n, _ => some (signed n)
    | none, none, some x => some (real x)
    | none, none, none =>
      if Pattern.isValid text then some (pattern (String.ofList text)) else none

def text : FieldValue → String
  | bool b => if b then "true" else "false"
  | unsigned n => toString n
  | signed n => toString n
  | real x => x.toText
  | pattern text => text

/-- The value without the sign of a zero. -/
def unsignedZero : FieldValue → FieldValue
  | real x => real (if x.isZero then .finite false 0 0 else x)
  | v => v

end FieldValue

structure FieldMatch where
  name : String
  value : Option FieldValue := none
deriving DecidableEq

namespace FieldMatch

/-- A name, and perhaps a value between an equals sign and the next. -/
def ofText? (text : List Char) : Option FieldMatch :=
  let (name, rest) := text.span (· != '=')
  let name := String.ofList name
  match rest with
  | [] => some { name }
  | _ :: rest =>
    (FieldValue.ofText? (rest.takeWhile (· != '='))).map fun value => { name, value := some value }

def text (f : FieldMatch) : String :=
  match f.value with
  | none => f.name
  | some v => f.name ++ "=" ++ v.text

end FieldMatch

end MqttBroker
