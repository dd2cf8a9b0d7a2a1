import MqttBroker.Configuration.Value
import MqttBroker.Text.Scan
/-!
Settings files in TOML 1.1. A document is built line by line, and remembers how each of its tables
came to be, because that decides whether a later line may add to it.
-/

namespace MqttBroker

namespace TomlFile

/-! ### The document -/

inductive Origin where
  /-- Named on the way to the table of a header. -/
  | implied
  /-- Named on the way to a key. -/
  | dotted
  | header
deriving DecidableEq

inductive Node where
  | leaf (v : ConfigValue)
  | table (origin : Origin) (entries : List (String × Node))
  /-- Tables under one repeated header. -/
  | tables (elements : List (List (String × Node)))

abbrev Nodes := List (String × Node)

def replace (key : String) (node : Node) : Nodes → Nodes
  | [] => [(key, node)]
  | (k, old) :: rest => if k = key then (key, node) :: rest else (k, old) :: replace key node rest

/-- Changes the table at the end of a path, making the tables that are missing. Of several tables
under one header the way leads through the last. A dotted key may not enter a table that has a
header of its own nor add to one of several, and a table that it adds to can get no header later.
-/
def descend (dotted : Bool) (f : Nodes → Option Nodes) : List String → Nodes → Option Nodes
  | [], nodes => f nodes
  | key :: path, nodes => match nodes.lookup key with
    | none => do
      let inner ← descend dotted f path []
      return replace key (.table (if dotted then .dotted else .implied) inner) nodes
    | some (.table origin inner) =>
      if dotted && origin = .header then none
      else do
        let inner ← descend dotted f path inner
        let origin := if dotted && path.isEmpty then .dotted else origin
        return replace key (.table origin inner) nodes
    | some (.tables elements) => match elements.reverse with
      | [] => none
      | last :: before =>
        if dotted && path.isEmpty then none
        else do
          let last ← descend dotted f path last
          return replace key (.tables (last :: before).reverse) nodes
    | some (.leaf _) => none

/-- Applies `f` to the last key of a path in the table that the keys before it lead to. -/
def atPath (dotted : Bool) (path : List String) (f : String → Nodes → Option Nodes)
    (nodes : Nodes) : Option Nodes :=
  match path.reverse with
  | [] => none
  | key :: before => descend dotted (f key) before.reverse nodes

def addLeaf (v : ConfigValue) (key : String) (nodes : Nodes) : Option Nodes :=
  match nodes.lookup key with
  | none => some (nodes ++ [(key, .leaf v)])
  | some _ => none

def openTable (key : String) (nodes : Nodes) : Option Nodes :=
  match nodes.lookup key with
  | none => some (nodes ++ [(key, .table .header [])])
  | some (.table .implied inner) => some (replace key (.table .header inner) nodes)
  | _ => none

def openElement (key : String) (nodes : Nodes) : Option Nodes :=
  match nodes.lookup key with
  | none => some (nodes ++ [(key, .tables [[]])])
  | some (.tables elements) => some (replace key (.tables (elements ++ [[]])) nodes)
  | _ => none

mutual

def Node.value : Node → ConfigValue
  | .leaf v => v
  | .table _ nodes => .table (entriesOf nodes)
  | .tables elements => .array (elementsOf elements)

def entriesOf : Nodes → ConfigValue.Entries
  | [] => []
  | (key, node) :: rest => (key, node.value) :: entriesOf rest

def elementsOf : List Nodes → List ConfigValue
  | [] => []
  | nodes :: rest => .table (entriesOf nodes) :: elementsOf rest

end

/-! ### Blanks -/

def blanks : Scan Unit := do
  let _ ← Scan.span fun c => c = ' ' || c = '\t'

def isControl (c : Char) : Bool := (c < ' ' && c != '\t') || c = '\x7f'

/-- Takes a line break if it comes next. -/
def lineBreak? : Scan (List Char) := fun
  | '\n' :: rest => some (['\n'], rest)
  | '\r' :: '\n' :: rest => some (['\r', '\n'], rest)
  | text => some ([], text)

/-- Takes a line break if it comes next. -/
def lineBreak : Scan Bool := do return !(← lineBreak?).isEmpty

def comment : Scan Unit := do
  if ← Scan.accept '#' then
    let _ ← Scan.span fun c => !isControl c

/-- Blanks and a comment, up to the end of the line or of the text. -/
def lineEnd : Scan Unit := do
  blanks
  comment
  if ← lineBreak then return ()
  match ← Scan.peek? with
  | none => return ()
  | some _ => failure

/-- Blanks, comments and line breaks, as many as come. -/
def blankLines : Scan Unit := do
  let _ ← Scan.collect do
    blanks
    comment
    return if ← lineBreak then some () else none

/-! ### Strings and keys -/

def escape : Scan Char := do
  match ← Scan.next with
  | '"' => return '"'
  | '\\' => return '\\'
  | 'b' => return '\x08'
  | 'e' => return '\x1b'
  | 't' => return '\t'
  | 'n' => return '\n'
  | 'f' => return '\x0c'
  | 'r' => return '\r'
  | 'x' => Scan.charOf (← Scan.hex 2 0)
  | 'u' => Scan.charOf (← Scan.hex 4 0)
  | 'U' => Scan.charOf (← Scan.hex 8 0)
  | _ => failure

/-- The rest of a string on one line. Only double quotes know escapes. -/
def lineString (quote : Char) : Scan String := do
  let chars ← Scan.collect do
    let c ← Scan.next
    if c = quote then return none
    else if c = '\\' && quote = '"' then some <$> escape
    else if isControl c then failure
    else return some c
  return String.ofList chars

/-- A backslash at the end of a line hides the line break and all blanks after it. -/
def continuation : Scan Unit := do
  blanks
  if !(← lineBreak) then failure
  let _ ← Scan.collect do
    blanks
    return if ← lineBreak then some () else none

/-- What stands for itself or for nothing in a string of several lines. -/
def linesPiece (quote : Char) : Scan (List Char) := do
  let found ← lineBreak?
  if !found.isEmpty then return found
  let c ← Scan.next
  if c = '\\' && quote = '"' then
    match ← Scan.peek? with
    | some ' ' | some '\t' | some '\n' | some '\r' => do
      continuation
      return []
    | _ => return [← escape]
  else if isControl c then failure
  else return [c]

/-- The rest of a string of several lines. Up to two quotes may stand before the three that end it.
-/
def linesRest (quote : Char) : Nat → Scan (List Char)
  | 0 => failure
  | rounds + 1 => do
    let quotes ← Scan.span (· = quote)
    if 5 < quotes.length then failure
    else if 3 ≤ quotes.length then return quotes.drop 3
    else
      let piece ← linesPiece quote
      return quotes ++ piece ++ (← linesRest quote rounds)

def linesString (quote : Char) : Scan String := do
  let _ ← lineBreak
  fun text => do
    let (chars, rest) ← linesRest quote (text.length + 1) text
    return (String.ofList chars, rest)

def string (quote : Char) : Scan String := do
  Scan.expect quote
  if ← Scan.accept quote then
    if ← Scan.accept quote then linesString quote else return ""
  else lineString quote

def isBare (c : Char) : Bool := c.isAlphanum || c = '_' || c = '-'

def simpleKey : Scan String := do
  match ← Scan.peek? with
  | some '"' => do
    Scan.expect '"'
    lineString '"'
  | some '\'' => do
    Scan.expect '\''
    lineString '\''
  | _ => do
    let name ← Scan.span isBare
    if name.isEmpty then failure else return String.ofList name

/-- The most keys that dots may join. -/
def maxKeys : Nat := 80

/-- Keys between dots. -/
def dottedKey : Scan (List String) := do
  blanks
  let first ← simpleKey
  blanks
  let more ← Scan.collect do
    if ← Scan.accept '.' then
      blanks
      let key ← simpleKey
      blanks
      return some key
    else return none
  if maxKeys ≤ more.length then failure else return first :: more

/-! ### Numbers and times -/

/-- The digits without the underscores between them; none may stand at an end or next to another. -/
def plainDigits? (isDigit : Char → Bool) : List Char → Option (List Char)
  | [] => none
  | [c] => if isDigit c then some [c] else none
  | c :: '_' :: rest => if isDigit c then (plainDigits? isDigit rest).map (c :: ·) else none
  | c :: rest => if isDigit c then (plainDigits? isDigit rest).map (c :: ·) else none

def digitIn (base : Nat) (c : Char) : Bool := (Scan.hexDigitValue? c).any (· < base)

def natIn (base : Nat) (digits : List Char) : Nat :=
  digits.foldl (fun n c => base * n + (Scan.hexDigitValue? c).getD 0) 0

/-- Decimal digits without a leading zero. -/
def decimal? (text : List Char) : Option (List Char) := do
  let digits ← plainDigits? Char.isDigit text
  if digits.head? = some '0' && digits.length != 1 then none else some digits

def signOf : List Char → List Char × List Char
  | '-' :: text => (['-'], text)
  | '+' :: text => (['+'], text)
  | text => ([], text)

def integer? (text : List Char) : Option Int :=
  match text with
  | '0' :: 'x' :: digits => (plainDigits? (digitIn 16) digits).map fun digits => natIn 16 digits
  | '0' :: 'o' :: digits => (plainDigits? (digitIn 8) digits).map fun digits => natIn 8 digits
  | '0' :: 'b' :: digits => (plainDigits? (digitIn 2) digits).map fun digits => natIn 2 digits
  | _ => do
    let (sign, text) := signOf text
    WholeNumber.ofText? (sign ++ (← decimal? text))

/-- A number with a fraction or an exponent. There are digits on both sides of a point. -/
def real? (text : List Char) : Option Binary64 := do
  let (sign, text) := signOf text
  if text = ['i', 'n', 'f'] || text = ['n', 'a', 'n'] then Binary64.ofText? (sign ++ text)
  else
    let (number, exponent) := text.span fun c => c != 'e' && c != 'E'
    let (whole, places) := number.span (· != '.')
    let whole ← decimal? whole
    let places ← match places with
      | [] => some []
      | point :: digits => (plainDigits? Char.isDigit digits).map (point :: ·)
    let exponent ← match exponent with
      | [] => some []
      | e :: rest =>
        let (sign, digits) := signOf rest
        (plainDigits? Char.isDigit digits).map fun digits => e :: sign ++ digits
    if places.isEmpty && exponent.isEmpty then none
    else match Binary64.ofText? (sign ++ whole ++ places ++ exponent) with
      | some (.infinite _) => none
      | x => x

def upTo (limit : Nat) (digits : List Char) : Bool := WholeNumber.ofDigits digits ≤ limit

def daysIn (year month : Nat) : Nat :=
  if month = 2 then
    if year % 4 = 0 && (year % 100 != 0 || year % 400 = 0) then 29 else 28
  else if month = 4 || month = 6 || month = 9 || month = 11 then 30
  else 31

def date : Scan (List Char) := do
  let year ← Scan.digits 4
  Scan.expect '-'
  let month ← Scan.digits 2
  Scan.expect '-'
  let day ← Scan.digits 2
  let m := WholeNumber.ofDigits month
  let d := WholeNumber.ofDigits day
  if 1 ≤ m && m ≤ 12 && 1 ≤ d && d ≤ daysIn (WholeNumber.ofDigits year) m then
    return year ++ '-' :: month ++ '-' :: day
  else failure

/-- The places of a second: at most nine, without zeros at the end, but at least one. -/
def secondPlaces (digits : List Char) : List Char :=
  match ((digits.take 9).reverse.dropWhile (· = '0')).reverse with
  | [] => ['0']
  | places => places

/-- A second, perhaps with a fraction. -/
def second : Scan (List Char) := do
  let whole ← Scan.digits 2
  if !upTo 60 whole then failure
  if ← Scan.accept '.' then
    let digits ← Scan.span Char.isDigit
    if digits.isEmpty then failure else return whole ++ '.' :: secondPlaces digits
  else return whole

/-- An hour and a minute, and perhaps a second. -/
def time : Scan (List Char) := do
  let hour ← Scan.digits 2
  Scan.expect ':'
  let minute ← Scan.digits 2
  if !(upTo 23 hour && upTo 59 minute) then failure
  let clock := hour ++ ':' :: minute
  if ← Scan.accept ':' then return clock ++ ':' :: (← second) else return clock

/-- A distance from Greenwich time. None at all is positive. -/
def offset : Scan (List Char) := do
  match ← Scan.peek? with
  | none => return []
  | some c =>
    let _ ← Scan.next
    if c = 'Z' || c = 'z' then return ['Z']
    else if c = '+' || c = '-' then
      let hour ← Scan.digits 2
      Scan.expect ':'
      let minute ← Scan.digits 2
      if !(upTo 23 hour && upTo 59 minute) then failure
      let sign := if upTo 0 (hour ++ minute) then '+' else c
      return sign :: hour ++ ':' :: minute
    else failure

/-- A date, a time of day, or a date and a time with or without an offset. -/
def moment : Scan (List Char) := fun text =>
  match date text with
  | none => time text
  | some (day, []) => some (day, [])
  | some (day, mark :: rest) =>
    if mark = 'T' || mark = 't' || mark = ' ' then do
      let (hour, rest) ← time rest
      let (zone, rest) ← offset rest
      return (day ++ 'T' :: hour ++ zone, rest)
    else none

/-- What a word that is no string stands for. -/
def wordValue? (word : List Char) : Option ConfigValue :=
  match integer? word with
  | some n => if WholeNumber.fitsSigned n then some (.integer n) else none
  | none => match real? word with
    | some x => some (.real x)
    | none => (moment.whole? word).map fun text => .text (String.ofList text)

def isWord (c : Char) : Bool := isBare c || c = '+' || c = '.' || c = ':'

/-- A word; a blank before a time of day is part of it. -/
def word : Scan (List Char) := fun text => do
  let (first, rest) := text.span isWord
  match rest with
  | ' ' :: c :: more =>
    if c.isDigit && (date.whole? first).isSome then
      let (second, rest) := (c :: more).span isWord
      return (first ++ ' ' :: second, rest)
    else return (first, rest)
  | _ => return (first, rest)

/-! ### Values and lines -/

/-- What stands behind an item of an array or of an inline table: a comma, unless the end comes. -/
def itemEnd (close : Char) : Scan Unit := do
  blankLines
  match ← Scan.peek? with
  | none => failure
  | some c =>
    if c != close then
      Scan.expect ','
      blankLines

/-- A value with at most `depth` arrays and inline tables inside one another. -/
def value (depth : Nat) : Scan ConfigValue := do
  match ← Scan.peek? with
  | some '"' => .text <$> string '"'
  | some '\'' => .text <$> string '\''
  | some '[' => match depth with
    | 0 => failure
    | depth + 1 => do
      Scan.expect '['
      blankLines
      let elements ← Scan.collect do
        if ← Scan.accept ']' then return none
        let v ← value depth
        itemEnd ']'
        return some v
      return .array elements
  | some '{' => match depth with
    | 0 => failure
    | depth + 1 => do
      Scan.expect '{'
      blankLines
      let pairs ← Scan.collect do
        if ← Scan.accept '}' then return none
        let path ← dottedKey
        blankLines
        Scan.expect '='
        blankLines
        let v ← value depth
        itemEnd '}'
        return some (path, v)
      let nodes ← StateT.lift <| pairs.foldlM
        (fun nodes (path, v) => atPath true path (addLeaf v) nodes) []
      return .table (entriesOf nodes)
  | _ => do
    let w ← word
    if w = ['t', 'r', 'u', 'e'] then return .bool true
    else if w = ['f', 'a', 'l', 's', 'e'] then return .bool false
    else StateT.lift (wordValue? w)

/-- How deep values may be nested. -/
def maxDepth : Nat := 80

inductive Line where
  | table (path : List String)
  | element (path : List String)
  | entry (path : List String) (v : ConfigValue)

/-- A line that says something. -/
def line : Scan Line := do
  if ← Scan.acceptText "[[" then
    let path ← dottedKey
    if ← Scan.acceptText "]]" then return .element path else failure
  else if ← Scan.accept '[' then
    let path ← dottedKey
    Scan.expect ']'
    return .table path
  else
    let path ← dottedKey
    Scan.expect '='
    blanks
    return .entry path (← value maxDepth)

/-- A document while it is read: its tables, and the path of the table that keys go to. -/
structure Document where
  nodes : Nodes := []
  here : List String := []

namespace Document

def add? (d : Document) : Line → Option Document
  | .table path => (atPath false path openTable d.nodes).map fun nodes => { nodes, here := path }
  | .element path =>
    (atPath false path openElement d.nodes).map fun nodes => { nodes, here := path }
  | .entry path v =>
    (descend false (atPath true path (addLeaf v)) d.here d.nodes).map fun nodes => { d with nodes }

end Document

def document : Scan (List Line) := do
  blankLines
  Scan.collect do
    blanks
    match ← Scan.peek? with
    | none => return none
    | some _ => do
      let l ← line
      lineEnd
      blankLines
      return some l

/-- The entries of a file. It may start with a byte order mark. -/
def parse? (text : String) : Option ConfigValue.Entries := do
  let text := text.toList
  let lines ← document.whole? (if text.head? = some '\uFEFF' then text.tail else text)
  let d ← lines.foldlM Document.add? {}
  return entriesOf d.nodes

end TomlFile

end MqttBroker
