import MqttBroker.Number.Binary64
/-! What settings are made of before they are read: values from files and environment variables. -/

namespace MqttBroker

inductive ConfigValue where
  | nothing
  | bool (b : Bool)
  | integer (n : Int)
  | real (x : Binary64)
  | text (s : String)
  | array (elements : List ConfigValue)
  | table (entries : List (String × ConfigValue))

namespace ConfigValue

abbrev Entries := List (String × ConfigValue)

instance : Inhabited ConfigValue := ⟨nothing⟩

/-- Puts a value under a key, in place of the one that is there. -/
def assign (key : String) (v : ConfigValue) : Entries → Entries
  | [] => [(key, v)]
  | (k, old) :: rest => if k = key then (key, v) :: rest else (k, old) :: assign key v rest

/-- The value under a key, or nothing. -/
def find (entries : Entries) (key : String) : ConfigValue := (entries.lookup key).getD nothing

/-- The entries of a table. Any other value has none. -/
def entries : ConfigValue → Entries
  | table entries => entries
  | _ => []

/-- The elements of an array. Any other value has none. -/
def elements : ConfigValue → List ConfigValue
  | array elements => elements
  | _ => []

def isNothing : ConfigValue → Bool
  | nothing => true
  | _ => false

/-! ### Conversions -/

/-- Words that stand for true and false, in any case. -/
def boolOf? (text : String) : Option Bool :=
  match text.toLower with
  | "true" | "on" | "yes" => some true
  | "false" | "off" | "no" => some false
  | _ => none

def toUnsigned? : ConfigValue → Option Nat
  | bool b => some b.toNat
  | integer n => if n < 0 then none else some n.toNat
  | real x => some x.toUnsigned
  | text s => match boolOf? s with
    | some b => some b.toNat
    | none => WholeNumber.unsigned? s.toList
  | _ => none

def toBool? : ConfigValue → Option Bool
  | bool b => some b
  | integer n => some (n != 0)
  | real x => some !x.isZero
  | text s => if s = "1" then some true else if s = "0" then some false else boolOf? s
  | _ => none

def toText? : ConfigValue → Option String
  | bool b => some (if b then "true" else "false")
  | integer n => some (toString n)
  | real x => some x.toText
  | text s => some s
  | _ => none

/-- The values of a section with these keys: by key from a table, by place from an array that is
long enough. -/
def parts? (keys : List String) : ConfigValue → Option (List ConfigValue)
  | nothing => some (keys.map fun _ => nothing)
  | table entries => some (keys.map (find entries))
  | array elements =>
    if elements.length < keys.length then none else some (elements.take keys.length)
  | _ => none

end ConfigValue

end MqttBroker
