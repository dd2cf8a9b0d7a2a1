/-! Reading text from the front: the part that the file formats share. -/

namespace MqttBroker

/-- Takes characters off the front of a text, or fails. -/
abbrev Scan := StateT (List Char) Option

namespace Scan

def next : Scan Char := fun
  | [] => none
  | c :: rest => some (c, rest)

def peek? : Scan (Option Char) := fun text => some (text.head?, text)

/-- Takes the character if it comes next. -/
def accept (c : Char) : Scan Bool := fun text =>
  if text.head? = some c then some (true, text.tail) else some (false, text)

def expect (c : Char) : Scan Unit := do
  if ← accept c then return () else failure

/-- Takes the text if it comes next. -/
def acceptText (wanted : String) : Scan Bool := fun text =>
  if wanted.toList.isPrefixOf text then some (true, text.drop wanted.length) else some (false, text)

/-- Takes the longest run of such characters. -/
def span (p : Char → Bool) : Scan (List Char) := fun text => some (text.span p)

/-- The results of `f` up to its first `none`. -/
def collectRounds {α : Type} (f : Scan (Option α)) : Nat → Scan (List α)
  | 0 => failure
  | rounds + 1 => do
    match ← f with
    | none => return []
    | some a => return a :: (← collectRounds f rounds)

/-- The results of `f` up to its first `none`; every result must take a character. -/
def collect {α : Type} (f : Scan (Option α)) : Scan (List α) := fun text =>
  collectRounds f (text.length + 1) text

/-- Exactly `n` decimal digits. -/
def digits (n : Nat) : Scan (List Char) := fun text =>
  let taken := text.take n
  if taken.length = n && taken.all Char.isDigit then some (taken, text.drop n) else none

def hexDigitValue? (c : Char) : Option Nat :=
  if c.isDigit then some (c.toNat - 48)
  else if 'a' ≤ c ∧ c ≤ 'f' then some (c.toNat - 87)
  else if 'A' ≤ c ∧ c ≤ 'F' then some (c.toNat - 55)
  else none

/-- The number that exactly `n` hexadecimal digits stand for. -/
def hex : Nat → Nat → Scan Nat
  | 0, value => return value
  | n + 1, value => do
    let some digit := hexDigitValue? (← next) | failure
    hex n (16 * value + digit)

/-- The character with that code, unless it is half of a surrogate pair or too large. -/
def charOf (code : Nat) : Scan Char :=
  if code.isValidChar then return Char.ofNat code else failure

/-- The result of `f` if it takes the whole text. -/
def whole? {α : Type} (f : Scan α) (text : List Char) : Option α :=
  match f text with
  | some (a, []) => some a
  | _ => none

end Scan

end MqttBroker
