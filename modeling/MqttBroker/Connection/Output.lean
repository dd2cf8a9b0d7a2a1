import MqttBroker.Bytes
/-!
A buffer between a writer and a transport that takes bytes in pieces of any size. What fits is kept
until a flush; what is at least as large as the whole buffer goes past it, once the buffer is empty.
-/

namespace MqttBroker

structure Output where
  capacity : Nat
  buffer : Bytes := []
  /-- How much of the buffer the transport has taken already. -/
  taken : Nat := 0
deriving DecidableEq

namespace Output

/-- The buffered bytes the transport has yet to take. -/
def pending (o : Output) : Bytes := o.buffer.drop o.taken

/-- Must the buffer be emptied before `rest` is written? -/
def isCrowded (o : Output) (rest : Bytes) : Bool :=
  !o.buffer.isEmpty && o.capacity < o.buffer.length + rest.length

/-- Does writing `rest` need the transport to take bytes? -/
def needsRoom (o : Output) (rest : Bytes) : Bool := o.isCrowded rest || o.capacity ≤ rest.length

/-- Hands buffered bytes to a transport that takes up to `room`; the second part is what it took. -/
def drain (o : Output) (room : Nat) : Output × Bytes :=
  let piece := o.pending.take room
  let taken := o.taken + piece.length
  if o.buffer.length ≤ taken then ({ o with buffer := [], taken := 0 }, piece)
  else ({ o with taken }, piece)

/-- One step of writing `rest`: the output, what is still to be written, what the transport took. -/
def accept (o : Output) (rest : Bytes) (room : Nat) : Output × Bytes × Bytes :=
  if o.isCrowded rest then
    let (o', piece) := o.drain room
    (o', rest, piece)
  else if o.capacity ≤ rest.length then (o, rest.drop room, rest.take room)
  else ({ o with buffer := o.buffer ++ rest }, [], [])

end Output

end MqttBroker
