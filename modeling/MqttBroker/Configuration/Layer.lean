import MqttBroker.Configuration.Path
/-! Settings of several sources laid over one another. -/

namespace MqttBroker

namespace ConfigValue

mutual

/-- Lays a value over another: tables key by key, and anything else in place of what was there. -/
def overlay (old : ConfigValue) : ConfigValue → ConfigValue
  | table new => table (overlayEntries old.entries new)
  | nothing => nothing
  | bool b => bool b
  | integer n => integer n
  | real x => real x
  | text s => text s
  | array elements => array elements

def overlayEntries (old : Entries) : Entries → Entries
  | [] => old
  | (key, v) :: rest => overlayEntries (assign key (overlay (find old key) v) old) rest

end

/-- Elements that reach to a place, with nothings added where they fall short of it, and the place
from the front. -/
def reach (elements : List ConfigValue) (place : Int) : List ConfigValue × Nat :=
  let added (n : Nat) := List.replicate n nothing
  if 0 ≤ place then (elements ++ added (place.toNat + 1 - elements.length), place.toNat)
  else
    let back := (-place).toNat
    (added (back - elements.length) ++ elements, elements.length - back)

/-- Lays a value over what is at the end of a path. What is no table or no array where the path
needs one becomes one. -/
def place (v : ConfigValue) : List PathStep → ConfigValue → ConfigValue
  | [], old => overlay old v
  | .key key :: path, old => table (assign key (place v path (find old.entries key)) old.entries)
  | .index i :: path, old =>
    let (elements, i) := reach old.elements i
    array (elements.modify i (place v path))

/-- Lays the entries of a source over what earlier sources gave. A key of a source may be a path. -/
def layer (old : ConfigValue) (source : Entries) : ConfigValue :=
  source.foldl (fun old (key, v) => place v ((PathStep.pathOf? key).getD [.key key]) old) old

end ConfigValue

end MqttBroker
