import MqttBroker.Text.Alphanumeric
import MqttBroker.Text.Blank
import MqttBroker.Text.Scan
/-!
Which texts are regular expressions that can be matched in one pass over text. Nothing is matched
here. There are no look-around and no references back, no counted repetitions, and outside ASCII
mode nothing that takes knowledge of all scripts: no classes by property, no word boundaries and no
letters in any case. What could match a part of a character is no expression either.
-/

namespace MqttBroker

namespace Pattern

structure Flags where
  /-- Letters match in either case. -/
  anyCase : Bool := false
  /-- Characters of all scripts count, not only those of ASCII. -/
  unicode : Bool := true
  /-- Blanks and comments do not count. -/
  spaced : Bool := false

/-- Blanks and comments, where they do not count. -/
def skip (flags : Flags) : Scan Unit := do
  if flags.spaced then
    let _ ← Scan.collect do
      match ← Scan.peek? with
      | none => return none
      | some c =>
        if c = '#' then
          let _ ← Scan.span (· != '\n')
          return some ()
        else if Blank.isBlank c then
          let _ ← Scan.next
          return some ()
        else return none

/-- What a character or an escape stands for. -/
inductive Atom where
  | char (c : Char)
  /-- A class of characters. -/
  | set
  /-- A place between characters. -/
  | place

/-! ### Escapes -/

/-- Punctuation may stand behind a backslash, but for angle brackets. -/
def isEscapable (c : Char) : Bool := c.toNat < 128 && !c.isAlphanum && c != '<' && c != '>'

def hexDigits (flags : Flags) : Nat → Nat → Scan Nat
  | 0, value => return value
  | n + 1, value => do
    skip flags
    let some digit := Scan.hexDigitValue? (← Scan.next) | failure
    hexDigits flags n (16 * value + digit)

/-- The rest of an escape behind its backslash. -/
def escape (flags : Flags) : Scan Atom := do
  match ← Scan.next with
  | 'x' => do
    let code ← hexDigits flags 2 0
    if !flags.unicode && 128 ≤ code then failure else .char <$> Scan.charOf code
  | 'u' => .char <$> (hexDigits flags 4 0 >>= Scan.charOf)
  | 'U' => .char <$> (hexDigits flags 8 0 >>= Scan.charOf)
  | 'd' | 's' | 'w' => if flags.unicode then failure else return .set
  | 'b' | 'B' | '<' | '>' => if flags.unicode then failure else return .place
  | 'A' | 'z' => return .place
  | 'a' => return .char '\x07'
  | 't' => return .char '\t'
  | 'n' => return .char '\n'
  | 'v' => return .char '\x0b'
  | 'f' => return .char '\x0c'
  | 'r' => return .char '\r'
  | c => if isEscapable c then return .char c else failure

/-! ### Classes in brackets -/

/-- What has been read of a class: how many members its last operand has, how deep these are nested,
and the depth of the operands before. -/
structure Members where
  count : Nat := 0
  deepest : Nat := 0
  before : Option Nat := none

namespace Members

def add (m : Members) (depth : Nat) : Members :=
  { m with count := m.count + 1, deepest := max m.deepest depth }

def depth (m : Members) : Nat :=
  let last := if m.count < 2 then m.deepest else m.deepest + 1
  match m.before with
  | none => last
  | some before => max before last + 1

def operator (m : Members) : Members := { before := some m.depth }

end Members

/-- May the character be a member by itself? -/
def isMember (flags : Flags) (c : Char) : Bool :=
  if flags.unicode then !flags.anyCase else c.toNat < 128

def member (flags : Flags) : Atom → Scan Unit
  | .char c => if isMember flags c then return () else failure
  | .set => return ()
  | .place => failure

def classNames : List String :=
  ["alnum", "alpha", "ascii", "blank", "cntrl", "digit", "graph", "lower", "print", "punct",
    "space", "upper", "word", "xdigit"]

/-- The rest of a class by name such as `[:alpha:]`, behind its bracket: whether the name is
negated, and the text behind the class. -/
def namedClass? : List Char → Option (Bool × List Char)
  | ':' :: text =>
    let (negated, text) := match text with
      | '^' :: text => (true, text)
      | text => (false, text)
    let (name, text) := text.span (· != ':')
    match text with
    | ':' :: ']' :: text =>
      if classNames.contains (String.ofList name) then some (negated, text) else none
    | _ => none
  | _ => none

/-- The start of a class behind its bracket. Hyphens there, and a closing bracket, are members. -/
def classStart (flags : Flags) : Scan Members := do
  skip flags
  if ← Scan.accept '^' then
    if !flags.unicode then failure
    skip flags
  let hyphens ← Scan.collect do
    if ← Scan.accept '-' then
      skip flags
      return some ()
    else return none
  let members : Members := { count := hyphens.length }
  if members.count = 0 then
    if ← Scan.accept ']' then
      member flags (.char ']')
      return members.add 0
    else return members
  else
    member flags (.char '-')
    return members

/-- Does a hyphen come next that stands between the ends of a range? -/
def hyphenInRange (flags : Flags) : Scan Bool := fun
  | '-' :: text => match (skip flags text).map Prod.snd with
    | some (']' :: _) | some ('-' :: _) => some (false, '-' :: text)
    | _ => some (true, '-' :: text)
  | text => some (false, text)

/-- A member that starts with that character: a character, a class, or a range of characters. -/
def memberFrom (flags : Flags) (c : Char) : Scan Unit := do
  let atom (c : Char) : Scan Atom := if c = '\\' then escape flags else return .char c
  let first ← atom c
  skip flags
  if ← hyphenInRange flags then
    Scan.expect '-'
    skip flags
    match first, ← atom (← Scan.next) with
    | .char low, .char high =>
      if !(isMember flags low && isMember flags high && low ≤ high) then failure
    | _, _ => failure
  else member flags first

/-- The rest of a class, up to its closing bracket, and how deep it is nested. -/
def classRest (flags : Flags) : Nat → Members → Scan Nat
  | 0, _ => failure
  | rounds + 1, m => do
    skip flags
    match ← Scan.next with
    | ']' => return m.depth + 1
    | '[' => match namedClass? (← get) with
      | some (negated, text) => do
        let refused := if flags.unicode then flags.anyCase else negated
        if refused then failure
        set text
        classRest flags rounds (m.add 0)
      | none => do
        let depth ← classRest flags rounds (← classStart flags)
        classRest flags rounds (m.add depth)
    | c => do
      let doubled ← if c = '&' || c = '-' || c = '~' then Scan.accept c else pure false
      if doubled then classRest flags rounds m.operator
      else
        memberFrom flags c
        classRest flags rounds (m.add 0)

/-! ### Groups -/

/-- A piece of a pattern: how deep it is nested, and whether it may be repeated. -/
structure Piece where
  depth : Nat := 0
  repeatable : Bool := true

/-- What has been read of a group: the depths of the branches before the last, and the pieces of the
last, in reverse. -/
structure Group where
  branches : List Nat := []
  pieces : List Piece := []

namespace Group

def add (g : Group) (p : Piece) : Group := { g with pieces := p :: g.pieces }

def branchDepth (g : Group) : Nat :=
  match g.pieces with
  | [] => 0
  | [p] => p.depth
  | ps => ps.foldl (fun deepest p => max deepest p.depth) 0 + 1

def depth (g : Group) : Nat :=
  match g.branches with
  | [] => g.branchDepth
  | depths => depths.foldl max g.branchDepth + 1

def nextBranch (g : Group) : Group := { branches := g.branchDepth :: g.branches }

/-- Repeats the last piece. -/
def repeated? (g : Group) : Option Group :=
  match g.pieces with
  | p :: rest =>
    if p.repeatable then some { g with pieces := { depth := p.depth + 1 } :: rest } else none
  | [] => none

end Group

/-- A pattern while it is read: the group that is open, those around it with the flags they go on
with, and the names of groups. -/
structure Progress where
  flags : Flags := {}
  group : Group := {}
  outer : List (Group × Flags) := []
  names : List (List Char) := []

namespace Progress

def add (p : Progress) (piece : Piece) : Progress := { p with group := p.group.add piece }

def literal (p : Progress) : Scan Progress :=
  if p.flags.unicode && p.flags.anyCase then failure else return p.add {}

/-- Opens a group with flags of its own. -/
def openGroup (p : Progress) (flags : Flags) : Progress :=
  { p with flags, group := {}, outer := (p.group, p.flags) :: p.outer }

def closeGroup? (p : Progress) : Option Progress :=
  match p.outer with
  | [] => none
  | (group, flags) :: outer =>
    some { p with flags, group := group.add { depth := p.group.depth + 1 }, outer }

/-- A name that no group has, up to its closing angle bracket. -/
def groupName (p : Progress) : Scan Progress := do
  let name ← Scan.span (· != '>')
  Scan.expect '>'
  let isStart (c : Char) : Bool := c = '_' || Alphanumeric.isAlphabetic c
  let isPart (c : Char) : Bool :=
    c = '_' || c = '.' || c = '[' || c = ']' || Alphanumeric.isAlphanumeric c
  if !(name.head?.any isStart && name.tail.all isPart) || p.names.contains name then failure
  else return { p.openGroup p.flags with names := name :: p.names }

end Progress

def flagLetters : List Char := ['i', 'm', 's', 'U', 'u', 'R', 'x']

/-- Flags to set and, behind a hyphen, flags to clear. None may stand there twice. -/
def changedFlags? (flags : Flags) (letters : List Char) : Option Flags :=
  let (on, off) := letters.span (· != '-')
  let changed := on ++ off.tail
  if !changed.all flagLetters.contains || changed.eraseDups.length != changed.length
    || off.length = 1 then none
  else
    let state (c : Char) (old : Bool) : Bool := on.contains c || old && !off.contains c
    some { anyCase := state 'i' flags.anyCase
           unicode := state 'u' flags.unicode
           spaced := state 'x' flags.spaced }

/-- What stands behind the opening bracket of a group. Flags without a group apply to the rest of
the group around them. -/
def groupStart (p : Progress) : Scan Progress := do
  skip p.flags
  if !(← Scan.accept '?') then return p.openGroup p.flags
  else if ← Scan.acceptText "P<" then p.groupName
  else if ← Scan.accept '<' then p.groupName
  else
    let letters ← Scan.span fun c => c != ':' && c != ')'
    let some flags := changedFlags? p.flags letters | failure
    if (← Scan.next) = ':' then return p.openGroup flags
    else if letters.isEmpty then failure
    else return { p with flags, group := p.group.add { repeatable := false } }

/-- The next piece of a pattern, or nothing at its end. -/
def piece? (p : Progress) : Scan (Option Progress) := do
  skip p.flags
  if (← get).isEmpty then return none
  some <$> match ← Scan.next with
    | '(' => groupStart p
    | ')' => StateT.lift p.closeGroup?
    | '|' => return { p with group := p.group.nextBranch }
    | '[' => do
      let start ← classStart p.flags
      let depth ← classRest p.flags ((← get).length + 1) start
      return p.add { depth }
    | '*' | '+' | '?' => do
      let some group := p.group.repeated? | failure
      let _ ← Scan.accept '?'
      return { p with group }
    | '\x7b' => failure
    | '.' => if p.flags.unicode then return p.add {} else failure
    | '^' | '$' => return p.add {}
    | '\\' => do
      match ← escape p.flags with
      | .char _ => p.literal
      | _ => return p.add {}
    | _ => p.literal

def pieces : Nat → Progress → Scan Progress
  | 0, _ => failure
  | rounds + 1, p => do
    match ← piece? p with
    | none => return p
    | some p => pieces rounds p

/-- How deep groups, classes, branches and repetitions may be nested. -/
def maxDepth : Nat := 250

def isValid (text : List Char) : Bool :=
  match pieces (text.length + 1) {} text with
  | some (p, _) => p.outer.isEmpty && p.group.depth ≤ maxDepth
  | none => false

end Pattern

end MqttBroker
