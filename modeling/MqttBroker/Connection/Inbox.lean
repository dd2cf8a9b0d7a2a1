import MqttBroker.Packet.Decode
/-! Turns the inbound bytes of a connection into packets, however they arrive. -/

namespace MqttBroker

structure Inbox where
  /-- The level packets are read at. -/
  level : Level := .v311
  maxPacketSize : Nat
  /-- Bytes that have arrived and belong to no packet yet. -/
  buffer : Bytes := []
deriving DecidableEq

namespace Inbox

inductive Reading where
  | packet (p : Packet) (left : Inbox)
  | malformed (cause : DecodeError)
  | incomplete
deriving DecidableEq

def feed (i : Inbox) (chunk : Bytes) : Inbox := { i with buffer := i.buffer ++ chunk }

/-- The packet at the front of the buffer. It is decoded only once the length its header announces
has arrived. -/
def next (i : Inbox) : Reading :=
  match Packet.frameLength i.buffer i.maxPacketSize with
  | .error cause => .malformed cause
  | .ok none => .incomplete
  | .ok (some size) =>
    let frame := i.buffer.take size
    if frame.length < size then .incomplete
    else match Packet.decode [frame] i.level i.maxPacketSize with
      | .error cause => .malformed cause
      | .ok none => .malformed .truncated
      | .ok (some (p, _)) => .packet p { i with buffer := i.buffer.drop size }

end Inbox

end MqttBroker
