import MqttBroker.Protocol
/-! What an operator can set: where to listen, the broker's limits, and the log level. -/

namespace MqttBroker

/-- Which protocol levels are served. -/
structure EnabledLevels where
  v31 : Bool := true
  v311 : Bool := true
  v5 : Bool := true
deriving DecidableEq

def EnabledLevels.has (e : EnabledLevels) : Level → Bool
  | .v31 => e.v31
  | .v311 => e.v311
  | .v5 => e.v5

structure Limits where
  /-- Seconds a new connection has to send its CONNECT. -/
  connectTimeoutSecs : Nat := 10
  /-- Outbound messages above QoS 0 awaiting acknowledgement, per session. -/
  maxInFlight : UInt16 := 32
  /-- Inbound QoS 2 messages awaiting PUBREL, per session. -/
  maxReceive : UInt16 := 64
  /-- Buffered outbound bytes that force a flush. -/
  maxUnflushedBytes : Nat := 16384
  maxPacketSize : Nat := 1048576
  outboxCapacity : Nat := 1024
  levels : EnabledLevels := {}
deriving DecidableEq

namespace Limits

def connectTimeoutMillis (l : Limits) : Nat := l.connectTimeoutSecs * 1000

/-- At least one inbound QoS 2 message is let through. -/
def receiveMaximum (l : Limits) : UInt16 := max l.maxReceive 1

/-- At least one outbound message is let through. -/
def inFlightMaximum (l : Limits) : UInt16 := max l.maxInFlight 1

end Limits

/-- Where the listeners bind; there is a WebSocket listener only if it has a port. -/
structure Endpoint where
  host : String := "127.0.0.1"
  port : UInt16 := 1883
  webSocketPort : Option UInt16 := none
deriving DecidableEq

structure Settings where
  endpoint : Endpoint := {}
  limits : Limits := {}
  logLevel : String := "info"
deriving DecidableEq

end MqttBroker
