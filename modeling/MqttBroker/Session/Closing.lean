import MqttBroker.ReasonCode
import MqttBroker.Wire.Error
/-! Why a connection ends: faults, the reason recorded for closing, and what the client is told. -/

namespace MqttBroker

/-- Why a CONNECT is refused. -/
inductive Refusal where
  | unsupportedProtocolVersion
  | invalidClientId
  | invalidCredentials
deriving DecidableEq

inductive TransportFault where
  /-- The stream ended inside a packet. -/
  | unexpectedEnd
  /-- The other side takes no more bytes. -/
  | brokenPipe
deriving DecidableEq

/-- Faults that end a session. -/
inductive SessionError where
  | malformedPacket (cause : DecodeError)
  | refused (cause : Refusal)
  | missingConnect
  | connectTimeout
  | keepAliveTimeout
  | queueOverflow
  | topicNameInvalid
  | receiveMaximumExceeded
  | protocolViolation (what : String)
  | encode (cause : EncodeError)
  | transport (fault : TransportFault)
deriving DecidableEq

def Refusal.label : Refusal → String
  | unsupportedProtocolVersion => "UnsupportedProtocolVersion"
  | invalidClientId => "InvalidClientId"
  | invalidCredentials => "InvalidCredentials"

def Refusal.message : Refusal → String
  | unsupportedProtocolVersion => "unsupported protocol version"
  | invalidClientId => "invalid client identifier"
  | invalidCredentials => "invalid credentials"

def TransportFault.message : TransportFault → String
  | unexpectedEnd => "unexpected end of file"
  | brokenPipe => "broken pipe"

def SessionError.label : SessionError → String
  | malformedPacket _ => "MalformedPacket"
  | refused cause => cause.label
  | missingConnect => "MissingConnectPacket"
  | connectTimeout => "ConnectTimeout"
  | keepAliveTimeout => "KeepAliveTimeout"
  | queueOverflow => "QueueOverflow"
  | topicNameInvalid => "TopicNameInvalid"
  | receiveMaximumExceeded => "ReceiveMaximumExceeded"
  | protocolViolation _ => "ProtocolViolation"
  | encode _ => "Encode"
  | transport _ => "Io"

def SessionError.message : SessionError → String
  | malformedPacket cause => "malformed packet: " ++ cause.message
  | refused cause => cause.message
  | missingConnect => "first packet was not CONNECT"
  | connectTimeout => "no CONNECT received within the connect timeout"
  | keepAliveTimeout => "no packet received within 1.5x the keep-alive interval"
  | queueOverflow => "outgoing queue is full"
  | topicNameInvalid => "topic name is not valid for PUBLISH"
  | receiveMaximumExceeded => "client exceeded the receive maximum for QoS 2 messages"
  | protocolViolation what => "protocol violation: " ++ what
  | encode cause => "encode failure: " ++ cause.message
  | transport fault => "transport error: " ++ fault.message

/-- Why a live connection is closed. -/
inductive CloseReason where
  | clientDisconnect
  /-- The transport failed or ended. -/
  | connectionLost
  /-- A new connection came for the same client id. -/
  | takenOver
  | serverShutdown
  | queueOverflow
  | keepAliveTimeout
  | malformedPacket
  | protocolError
  | topicNameInvalid
  | receiveMaximumExceeded
deriving DecidableEq

namespace CloseReason

/-- The reason code of the DISCONNECT a 5.0 client is sent, if it is sent one. -/
def disconnectCode? : CloseReason → Option UInt8
  | clientDisconnect | connectionLost | malformedPacket => none
  | takenOver => some ReasonCode.sessionTakenOver
  | serverShutdown => some ReasonCode.serverShuttingDown
  | queueOverflow => some ReasonCode.quotaExceeded
  | keepAliveTimeout => some ReasonCode.keepAliveTimeout
  | protocolError => some ReasonCode.protocolError
  | topicNameInvalid => some ReasonCode.topicNameInvalid
  | receiveMaximumExceeded => some ReasonCode.receiveMaximumExceeded

def label : CloseReason → String
  | clientDisconnect => "ClientDisconnect"
  | connectionLost => "ConnectionLost"
  | takenOver => "TakenOver"
  | serverShutdown => "ServerShutdown"
  | queueOverflow => "QueueOverflow"
  | keepAliveTimeout => "KeepAliveTimeout"
  | malformedPacket => "MalformedPacket"
  | protocolError => "ProtocolError"
  | topicNameInvalid => "TopicNameInvalid"
  | receiveMaximumExceeded => "ReceiveMaximumExceeded"

def all : List CloseReason :=
  [clientDisconnect, connectionLost, takenOver, serverShutdown, queueOverflow, keepAliveTimeout,
    malformedPacket, protocolError, topicNameInvalid, receiveMaximumExceeded]

def ofLabel? (label : String) : Option CloseReason := all.find? fun reason => reason.label == label

def ofError : SessionError → CloseReason
  | .malformedPacket _ => malformedPacket
  | .keepAliveTimeout => keepAliveTimeout
  | .queueOverflow => queueOverflow
  | .topicNameInvalid => topicNameInvalid
  | .receiveMaximumExceeded => receiveMaximumExceeded
  | .transport _ => connectionLost
  | _ => protocolError

theorem ofLabel?_label (reason : CloseReason) : ofLabel? reason.label = some reason := by
  cases reason <;> rfl

end CloseReason

/-- The handle of a live connection. It is asked to close through the handle, and tells through it
that it has let go of its session. -/
structure Lease where
  reason : Option CloseReason := none
  released : Bool := false
deriving DecidableEq

namespace Lease

/-- Only the first reason is kept. -/
def close (l : Lease) (reason : CloseReason) : Lease :=
  { l with reason := l.reason.or (some reason) }

def release (l : Lease) : Lease := { l with released := true }

end Lease

end MqttBroker
