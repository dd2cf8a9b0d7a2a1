import MqttBroker.Configuration.Value
import MqttBroker.Text.Scan
/-! Paths into settings, such as `broker.protocols.v5` or `broker[6][2]`. -/

namespace MqttBroker

inductive PathStep where
  | key (name : String)
  /-- An element by its place from the front or, if negative, from the back. -/
  | index (place : Int)
deriving DecidableEq

namespace PathStep

def isKeyChar (c : Char) : Bool := c.isAlphanum || c = '_' || c = '-'

def scanKey : Scan PathStep := do
  let name ← Scan.span isKeyChar
  if name.isEmpty then failure else return key (String.ofList name)

/-- The rest of a place behind its opening bracket. -/
def scanIndex : Scan PathStep := do
  let isBlank (c : Char) : Bool := c = ' ' || c = '\t'
  let _ ← Scan.span isBlank
  let place ← Scan.span fun c => c.isDigit || c = '-'
  let _ ← Scan.span isBlank
  Scan.expect ']'
  match WholeNumber.signed? place with
  | some place => return index place
  | none => failure

/-- A key, and further keys behind dots and places in brackets. -/
def scanPath : Scan (List PathStep) := do
  let first ← scanKey
  let more ← Scan.collect do
    if ← Scan.accept '.' then some <$> scanKey
    else if ← Scan.accept '[' then some <$> scanIndex
    else return none
  return first :: more

/-- The steps of a path, if the text is one. -/
def pathOf? (text : String) : Option (List PathStep) := scanPath.whole? text.toList

end PathStep

end MqttBroker
