import MqttBroker.Bytes
/-! One direction of a byte stream that holds a limited number of bytes between its two ends. -/

namespace MqttBroker

structure Pipe where
  capacity : Nat
  /-- Bytes written and not yet read. -/
  held : Bytes := []
  /-- Nothing more is taken; what is held can still be read. -/
  closed : Bool := false
  /-- How many bytes have been written in all. -/
  total : Nat := 0
  /-- The totals at the flushes that followed new bytes. -/
  flushes : List Nat := []
deriving DecidableEq

namespace Pipe

/-- How many bytes the pipe takes now; `none` when it takes no more ever. -/
def room (p : Pipe) : Option Nat := if p.closed then none else some (p.capacity - p.held.length)

def write (p : Pipe) (piece : Bytes) : Pipe :=
  { p with held := p.held ++ piece, total := p.total + piece.length }

/-- Notes a flush, if there are bytes since the last one. -/
def flush (p : Pipe) : Pipe :=
  if p.flushes.getLast?.getD 0 = p.total then p
  else { p with flushes := p.flushes ++ [p.total] }

def close (p : Pipe) : Pipe := { p with closed := true }

/-- All that is held. -/
def read (p : Pipe) : Bytes × Pipe := (p.held, { p with held := [] })

end Pipe

end MqttBroker
