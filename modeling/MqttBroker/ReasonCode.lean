/-! Numeric outcome codes: CONNACK return codes of the 3.x levels and reason codes of 5.0. -/

namespace MqttBroker

namespace ReturnCode

def accepted : UInt8 := 0
def unacceptableProtocolVersion : UInt8 := 1
def identifierRejected : UInt8 := 2
def serverUnavailable : UInt8 := 3
def badUserNameOrPassword : UInt8 := 4
def notAuthorized : UInt8 := 5

/-- A refused filter in a SUBACK below 5.0. -/
def subscriptionFailure : UInt8 := 0x80

def connAckCodes : List UInt8 :=
  [accepted, unacceptableProtocolVersion, identifierRejected, serverUnavailable,
    badUserNameOrPassword, notAuthorized]

end ReturnCode

namespace ReasonCode

def success : UInt8 := 0x00
def normalDisconnection : UInt8 := 0x00
def grantedQoS0 : UInt8 := 0x00
def grantedQoS1 : UInt8 := 0x01
def grantedQoS2 : UInt8 := 0x02
def disconnectWithWill : UInt8 := 0x04
def noMatchingSubscribers : UInt8 := 0x10
def noSubscriptionExisted : UInt8 := 0x11
def unspecifiedError : UInt8 := 0x80
def malformedPacket : UInt8 := 0x81
def protocolError : UInt8 := 0x82
def unsupportedProtocolVersion : UInt8 := 0x84
def clientIdentifierNotValid : UInt8 := 0x85
def badUserNameOrPassword : UInt8 := 0x86
def notAuthorized : UInt8 := 0x87
def serverUnavailable : UInt8 := 0x88
def serverShuttingDown : UInt8 := 0x8B
def badAuthenticationMethod : UInt8 := 0x8C
def keepAliveTimeout : UInt8 := 0x8D
def sessionTakenOver : UInt8 := 0x8E
def topicFilterInvalid : UInt8 := 0x8F
def topicNameInvalid : UInt8 := 0x90
def packetIdentifierNotFound : UInt8 := 0x92
def receiveMaximumExceeded : UInt8 := 0x93
def packetTooLarge : UInt8 := 0x95
def quotaExceeded : UInt8 := 0x97

/-- Every code, in ascending order; several meanings share the value 0. -/
def all : List UInt8 :=
  [success, normalDisconnection, grantedQoS0, grantedQoS1, grantedQoS2, disconnectWithWill,
    noMatchingSubscribers, noSubscriptionExisted, unspecifiedError, malformedPacket, protocolError,
    unsupportedProtocolVersion, clientIdentifierNotValid, badUserNameOrPassword, notAuthorized,
    serverUnavailable, serverShuttingDown, badAuthenticationMethod, keepAliveTimeout,
    sessionTakenOver, topicFilterInvalid, topicNameInvalid, packetIdentifierNotFound,
    receiveMaximumExceeded, packetTooLarge, quotaExceeded]

end ReasonCode

end MqttBroker
