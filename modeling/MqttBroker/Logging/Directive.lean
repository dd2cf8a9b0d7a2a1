import MqttBroker.Logging.FieldMatch
import MqttBroker.Logging.Level
/-! Log directives such as `broker[connect]=debug`: a threshold, and what it applies to. -/

namespace MqttBroker

/-- A threshold for a target, for spans by name or by a field, or for everything. -/
structure Directive where
  target : Option String := none
  span : Option String := none
  field : Option FieldMatch := none
  threshold : Threshold := some .trace
deriving DecidableEq

namespace Directive

/-- What the directive applies to. -/
def scope (d : Directive) : String :=
  let inSpan := match d.span, d.field with
    | none, none => ""
    | span, field =>
      let field := (field.map fun f => "\x7b" ++ f.text ++ "\x7d").getD ""
      "[" ++ span.getD "" ++ field ++ "]"
  d.target.getD "" ++ inSpan

def text (d : Directive) : String :=
  let all := d.target.isNone && d.span.isNone && d.field.isNone
  (if all then "" else d.scope ++ "=") ++ Threshold.name d.threshold

/-- Must the spans around a line be known? -/
def isDynamic (d : Directive) : Bool := d.span.isSome || d.field.isSome

/-- Does the directive say something about a line whatever spans are around it? -/
def isStatic (d : Directive) : Bool := d.span.isNone && !d.field.any (·.value.isSome)

/-- Do two directives apply to the same? -/
def sameScope (a b : Directive) : Bool :=
  let field (d : Directive) := d.field.map fun f => (f.name, f.value.map FieldValue.unsignedZero)
  a.target == b.target && a.span == b.span && field a == field b

/-! ### Reading -/

/-- The text behind so many bytes, unless they end within a character. -/
def dropBytes? : Nat → List Char → Option (List Char)
  | 0, text => some text
  | _ + 1, [] => none
  | n + 1, c :: rest => if c.utf8Size ≤ n + 1 then dropBytes? (n + 1 - c.utf8Size) rest else none

/-- So many bytes of a text, unless they end within a character. -/
def takeBytes? : Nat → List Char → Option (List Char)
  | 0, _ => some []
  | _ + 1, [] => none
  | n + 1, c :: rest =>
    if c.utf8Size ≤ n + 1 then (takeBytes? (n + 1 - c.utf8Size) rest).map (c :: ·) else none

/-- The bytes from `start` up to `stop`. -/
def slice? (text : List Char) (start stop : Nat) : Option (List Char) :=
  dropBytes? start text >>= takeBytes? (stop - start)

/-- What part of a directive is being read, and at which byte it starts. -/
inductive Stage where
  | start
  | levelOrTarget
  | span (start : Nat)
  | field (start : Nat)
  | fieldEnd
  | spanEnd
  | level (start : Nat)

def startsTarget (c : Char) : Bool :=
  c = '-' || c = ':' || c = '_' || Alphanumeric.isAlphanumeric c

/-- Goes on with the character at byte `i`. The parts of a directive are cut out of `text`. -/
def step (text : List Char) (i : Nat) (c : Char) (d : Directive) :
    Stage → Option (Stage × Directive)
  | .start =>
    if c = '[' then some (.span (i + 1), d)
    else if startsTarget c then some (.levelOrTarget, d)
    else none
  | .levelOrTarget =>
    if c = '=' || c = '[' then do
      let target ← slice? text 0 i
      let next := if c = '=' then .level (i + 1) else .span (i + 1)
      return (next, { d with target := some (String.ofList target) })
    else some (.levelOrTarget, d)
  | .span start =>
    if c = ']' then do
      let span ← slice? text start i
      return (.spanEnd, { d with span := some (String.ofList span) })
    else if c = '\x7b' then do
      let span ← slice? text start i
      let span := if span.isEmpty then none else some (String.ofList span)
      return (.field (i + 1), { d with span })
    else some (.span start, d)
  | .field start =>
    if c = '\x7d' then do
      let field ← slice? text start i
      if field.isEmpty then none
      else return (.fieldEnd, { d with field := some (← FieldMatch.ofText? field) })
    else some (.field start, d)
  | .fieldEnd => if c = ']' then some (.spanEnd, d) else none
  | .spanEnd => if c = '=' then some (.level (i + 1), d) else none
  | .level start => some (.level start, d)

def steps (text : List Char) : Nat → Stage × Directive → List Char → Option (Stage × Directive)
  | _, s, [] => some s
  | i, (stage, d), c :: rest => do steps text (i + c.utf8Size) (← step text i c d stage) rest

/-- A target alone lets everything through, and so does a missing level. -/
def finish (text : List Char) (d : Directive) : Stage → Option Directive
  | .levelOrTarget => match Threshold.ofText? text with
    | some threshold => some { d with threshold }
    | none => some { d with target := some (String.ofList text) }
  | .level start => do
    let level ← dropBytes? start text
    if level.isEmpty then return d
    else return { d with threshold := ← Threshold.ofText? level }
  | .spanEnd => some d
  | _ => none

/-- Reads a directive. Blanks around it do not count for where its parts start and end, but the
parts are cut out of the text with its blanks: blanks before a directive shift them all. -/
def ofText? (text : List Char) : Option Directive := do
  let (stage, d) ← steps text 0 (.start, {}) (Blank.trim text)
  finish text d stage

/-- Adds a directive in place of one for the same. -/
def add (d : Directive) (directives : List Directive) : List Directive :=
  directives.filter (fun old => !old.sameScope d) ++ [d]

end Directive

end MqttBroker
