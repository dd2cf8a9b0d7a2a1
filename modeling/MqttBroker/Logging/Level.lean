import MqttBroker.Number.Whole
/-! How grave log lines are, and how much of them is let through. -/

namespace MqttBroker

inductive LogLevel where
  | error
  | warn
  | info
  | debug
  | trace
deriving DecidableEq, Inhabited

namespace LogLevel

def name : LogLevel → String
  | error => "error"
  | warn => "warn"
  | info => "info"
  | debug => "debug"
  | trace => "trace"

/-- The level an operator names, in any case. What is no level counts as `info`. -/
def ofSetting (text : String) : LogLevel :=
  match text.toLower with
  | "error" => error
  | "warn" | "warning" => warn
  | "debug" => debug
  | "trace" => trace
  | _ => info

end LogLevel

/-- What a directive lets through: a level and all graver ones, or nothing. -/
abbrev Threshold := Option LogLevel

namespace Threshold

def name : Threshold → String
  | some level => level.name
  | none => "off"

/-- A threshold by its name, in any case, or by its number from 0 for nothing to 5 for everything.
-/
def ofText? (text : List Char) : Option Threshold :=
  match WholeNumber.unsigned? text with
  | some 0 => some none
  | some 1 => some (some .error)
  | some 2 => some (some .warn)
  | some 3 => some (some .info)
  | some 4 => some (some .debug)
  | some 5 => some (some .trace)
  | some _ => none
  | none => match (String.ofList text).toLower with
    | "off" => some none
    | "error" => some (some .error)
    | "warn" => some (some .warn)
    | "info" => some (some .info)
    | "debug" => some (some .debug)
    | "trace" => some (some .trace)
    | _ => none

end Threshold

end MqttBroker
