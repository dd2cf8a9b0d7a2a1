import MqttBroker.Broker.Basic
/-! What a CONNECT settles for the life of its connection. -/

namespace MqttBroker

structure Link where
  level : Level
  clientId : String
  /-- Milliseconds without a packet after which the client counts as gone. -/
  keepAlive : Option Nat
  inFlightLimit : Nat
  maxReceive : Nat
  /-- The largest packet the client takes. -/
  maxOutboundPacket : Option Nat
  /-- The session expiry the CONNECT asked for. -/
  sessionExpiry : UInt32
  /-- Is the session kept when the connection ends? -/
  persistent : Bool
deriving DecidableEq

namespace Link

/-- One and a half times the keep-alive, in milliseconds; 0 turns the check off. -/
def keepAliveMillis (seconds : UInt16) : Option Nat :=
  if seconds = 0 then none else some (seconds.toNat * 1500)

/-- The in-flight limit is the broker's, lowered at 5.0 to what the client can take. -/
def inFlightLimitFor (limits : Limits) (receiveMaximum : Option UInt16) : Nat :=
  match receiveMaximum with
  | some most => min limits.inFlightMaximum.toNat (max most 1).toNat
  | none => limits.inFlightMaximum.toNat

def negotiate (limits : Limits) (accepted : Accepted) (c : Connect) : Link :=
  let v5 := accepted.level.isV5
  let expiry := if v5 then (Properties.sessionExpiryInterval? c.properties).getD 0 else 0
  { level := accepted.level
    clientId := accepted.clientId
    keepAlive := keepAliveMillis c.keepAlive
    inFlightLimit :=
      inFlightLimitFor limits (if v5 then Properties.receiveMaximum? c.properties else none)
    maxReceive := limits.receiveMaximum.toNat
    maxOutboundPacket :=
      if v5 then (Properties.maximumPacketSize? c.properties).map UInt32.toNat else none
    sessionExpiry := expiry
    persistent := if v5 then 0 < expiry else !c.cleanSession }

end Link

end MqttBroker
