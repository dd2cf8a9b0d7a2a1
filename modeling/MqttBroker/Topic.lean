import MqttBroker.Bytes
/-!
Topic names and topic filters, as byte strings whose levels are separated by `/`. In a filter `+`
stands for one level and `#`, as the last level, for any number of levels.
-/

namespace MqttBroker.Topic

def separator : UInt8 := 0x2F
def singleLevel : UInt8 := 0x2B
def multiLevel : UInt8 := 0x23
/-- The `$` that sets a broker's own topics apart. -/
def reserved : UInt8 := 0x24

/-- The levels between separators; the empty string has one empty level. -/
def levels : Bytes → List Bytes
  | [] => [[]]
  | b :: rest =>
    if b = separator then [] :: levels rest
    else match levels rest with
      | [] => [[b]]
      | level :: others => (b :: level) :: others

/-- A wildcard fills its level, and `#` comes last. -/
def validLevels : List Bytes → Bool
  | [] => true
  | level :: others =>
    (!level.contains multiLevel || (level == [multiLevel] && others.isEmpty))
      && (!level.contains singleLevel || level == [singleLevel])
      && validLevels others

/-- May `filter` be subscribed to? -/
def isValidFilter (filter : Bytes) : Bool :=
  !filter.isEmpty && !filter.contains 0 && validLevels (levels filter)

/-- May `topic` be published to? -/
def isValidName (topic : Bytes) : Bool :=
  !topic.isEmpty && !topic.any fun b => b == singleLevel || b == multiLevel || b == 0

/-- One pass over both, from the left. A topic that ends where `/#` begins is the parent level,
which `#` includes. -/
def scan : Bytes → Bytes → Bool
  | topic, [] => topic.isEmpty
  | topic, f :: filter =>
    if f = multiLevel then true
    else if f = singleLevel then scan (topic.dropWhile (· != separator)) filter
    else match topic with
      | [] => f = separator && filter == [multiLevel]
      | t :: topic => t = f && scan topic filter

/-- Does the filter select the topic? A leading wildcard selects no reserved topic. -/
def isMatch (topic filter : Bytes) : Bool :=
  let wild := filter.head? == some singleLevel || filter.head? == some multiLevel
  if topic.head? == some reserved && wild then false else scan topic filter

end MqttBroker.Topic
