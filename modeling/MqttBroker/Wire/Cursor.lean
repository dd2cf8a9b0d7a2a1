import MqttBroker.Wire.Source
/-!
Reading across segments. Input arrives in pieces of any size, and a field may lie in one piece or
in several.
-/

namespace MqttBroker

namespace Segments

/-- The next byte, past segments that are used up. -/
def next? : List Bytes → Option (UInt8 × List Bytes)
  | [] => none
  | [] :: later => next? later
  | (b :: rest) :: later => some (b, rest :: later)

/-- The next `n` bytes: a slice of the first segment if it has them, else its bytes and those of the
segments behind it. -/
def gather? : Nat → List Bytes → Option (Bytes × List Bytes)
  | 0, segments => some ([], segments)
  | _ + 1, [] => none
  | n + 1, s :: later =>
    if (s.take (n + 1)).length = n + 1 then some (s.take (n + 1), s.drop (n + 1) :: later)
    else do
      let (more, left) ← gather? (n + 1 - s.length) later
      return (s ++ more, left)

theorem flatten_of_next? {segments later : List Bytes} {b : UInt8}
    (h : next? segments = some (b, later)) : segments.flatten = b :: later.flatten := by
  fun_induction next? segments with
  | case1 => simp at h
  | case2 later' ih => simpa using ih h
  | case3 b' rest later' =>
    obtain ⟨rfl, rfl⟩ : b' = b ∧ rest :: later' = later := by simpa using h
    simp

theorem flatten_of_gather? {n : Nat} {segments later : List Bytes} {front : Bytes}
    (h : gather? n segments = some (front, later)) :
    segments.flatten = front ++ later.flatten ∧ front.length = n := by
  fun_induction gather? n segments generalizing front later with
  | case1 segments =>
    obtain ⟨rfl, rfl⟩ : [] = front ∧ segments = later := by simpa using h
    simp
  | case2 => simp at h
  | case3 n s later' hn =>
    obtain ⟨rfl, rfl⟩ : s.take (n + 1) = front ∧ s.drop (n + 1) :: later' = later := by
      simpa using h
    exact ⟨by simp [← List.append_assoc], hn⟩
  | case4 n s later' hn ih =>
    simp only [Option.bind_eq_bind, Option.bind_eq_some_iff] at h
    obtain ⟨⟨more, left⟩, hmore, h⟩ := h
    obtain ⟨rfl, rfl⟩ : s ++ more = front ∧ left = later := by simpa using h
    obtain ⟨hflat, hlen⟩ := ih hmore
    rw [List.length_take] at hn
    refine ⟨by simp [hflat], ?_⟩
    rw [List.length_append, hlen]
    omega

end Segments

/-- A place in a sequence of segments and how many bytes may be read from there. -/
structure Cursor where
  /-- What is left of the segment being read, then the segments behind it. -/
  segments : List Bytes
  remaining : Nat
  remaining_le : remaining ≤ segments.flatten.length

namespace Cursor

def start (segments : List Bytes) : Cursor where
  segments
  remaining := segments.flatten.length
  remaining_le := Nat.le_refl _

/-- The bytes that may be read. -/
def content (c : Cursor) : Bytes := c.segments.flatten.take c.remaining

def byte (c : Cursor) : Except DecodeError (UInt8 × Cursor) :=
  if c.remaining = 0 then .error .truncated
  else match h : Segments.next? c.segments with
    | none => .error .truncated
    | some (b, later) =>
      .ok (b, {
        segments := later
        remaining := c.remaining - 1
        remaining_le := by
          have := c.remaining_le
          rw [Segments.flatten_of_next? h, List.length_cons] at this
          omega })

def take (n : Nat) (c : Cursor) : Except DecodeError (Bytes × Cursor) :=
  if c.remaining < n then .error .truncated
  else match h : Segments.gather? n c.segments with
    | none => .error .truncated
    | some (front, later) =>
      .ok (front, {
        segments := later
        remaining := c.remaining - n
        remaining_le := by
          have := c.remaining_le
          obtain ⟨hflat, hlen⟩ := Segments.flatten_of_gather? h
          rw [hflat, List.length_append] at this
          omega })

def window (n : Nat) (c : Cursor) : Cursor where
  segments := c.segments
  remaining := min n c.remaining
  remaining_le := Nat.le_trans (Nat.min_le_right _ _) c.remaining_le

instance : Source Cursor where
  remaining := remaining
  byte := byte
  take := take
  window := window

end Cursor

end MqttBroker
