import MqttBroker.Configuration.Value
/-!
Settings in environment variables. `PREFIX__SERVER__PORT` sets `server.port`, in any case.
-/

namespace MqttBroker

namespace Environment

/-- What stands between the prefix and the keys, and between the keys. -/
def separator : String := "__"

/-- A variable's text as a truth value, an integer or a number if it reads as one. -/
def valueOf (text : String) : ConfigValue :=
  if text.toLower = "true" then .bool true
  else if text.toLower = "false" then .bool false
  else match WholeNumber.signed? text.toList with
    | some n => .integer n
    | none => match Binary64.ofText? text.toList with
      | some x => .real x
      | none => .text text

/-- A letter of a name in lower case. The Kelvin sign is a letter K. -/
def lower (c : Char) : Char := if c = '\u212A' then 'k' else c.toLower

/-- The dotted path that a variable sets, if it has the prefix. -/
def key? (pre name : String) : Option String :=
  let pattern := (pre ++ separator).toList.map lower
  let name := name.toList.map lower
  if pattern.isPrefixOf name then
    some (".".intercalate ((String.ofList (name.drop pattern.length)).splitOn separator))
  else none

/-- The entries that the variables with the prefix make up. -/
def entries (pre : String) (vars : List (String × String)) : ConfigValue.Entries :=
  vars.filterMap fun (name, text) => (key? pre name).map fun key => (key, valueOf text)

end Environment

end MqttBroker
