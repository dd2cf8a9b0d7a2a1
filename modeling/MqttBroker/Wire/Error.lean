import MqttBroker.Protocol
/-! Why bytes are no packet, and why a packet has no bytes. -/

namespace MqttBroker

/-- Reasons a byte sequence can never become a packet. -/
inductive DecodeError where
  | malformedRemainingLength
  | packetTooLarge (size limit : Nat)
  | invalidPacketType (code : Nat)
  | invalidFlags (kind : Kind) (flags : UInt8)
  | invalidQoS (value : UInt8)
  | zeroPacketId
  | invalidUtf8
  | truncated
  | trailingBytes (count : Nat)
  | invalidPropertyId (id : Nat)
  | invalidConnectFlags (flags : UInt8)
  | invalidConnAckFlags (flags : UInt8)
  | invalidSubscriptionOptions (options : UInt8)
  | wildcardInTopicName
  | emptyFilterList (kind : Kind)
deriving DecidableEq

/-- Reasons a packet cannot be written. -/
inductive EncodeError where
  | fieldTooLong (size : Nat)
  | packetTooLarge (remaining : Nat)
  | missingPacketId
deriving DecidableEq

/-- The digits of `n` in the given base, with leading zeros up to `width`. -/
def paddedDigits (base width n : Nat) : String :=
  let digits := Nat.toDigits base n
  String.ofList (List.replicate (width - digits.length) '0' ++ digits)

/-- A short name for the error, without its details. -/
def DecodeError.label : DecodeError → String
  | malformedRemainingLength => "MalformedRemainingLength"
  | packetTooLarge .. => "PacketTooLarge"
  | invalidPacketType _ => "InvalidPacketType"
  | invalidFlags .. => "InvalidFlags"
  | invalidQoS _ => "InvalidQoS"
  | zeroPacketId => "ZeroPacketId"
  | invalidUtf8 => "InvalidUtf8"
  | truncated => "Truncated"
  | trailingBytes _ => "TrailingBytes"
  | invalidPropertyId _ => "InvalidPropertyId"
  | invalidConnectFlags _ => "InvalidConnectFlags"
  | invalidConnAckFlags _ => "InvalidConnAckFlags"
  | invalidSubscriptionOptions _ => "InvalidSubscriptionOptions"
  | wildcardInTopicName => "WildcardInTopicName"
  | emptyFilterList _ => "EmptyFilterList"

def DecodeError.message : DecodeError → String
  | malformedRemainingLength => "remaining length does not terminate within 4 bytes"
  | packetTooLarge size limit =>
    "packet of " ++ toString size ++ " bytes exceeds the maximum of " ++ toString limit
  | invalidPacketType code => "invalid packet type " ++ toString code
  | invalidFlags kind flags =>
    "invalid fixed header flags 0b" ++ paddedDigits 2 4 flags.toNat ++ " for " ++ kind.name
  | invalidQoS value => "invalid QoS " ++ toString value.toNat
  | zeroPacketId => "packet identifier must be non-zero"
  | invalidUtf8 => "string is not valid UTF-8"
  | truncated => "packet body ended before all fields were read"
  | trailingBytes count => toString count ++ " unexpected bytes after the last field"
  | invalidPropertyId id => "invalid property identifier 0x" ++ paddedDigits 16 2 id
  | invalidConnectFlags flags => "invalid connect flags 0b" ++ paddedDigits 2 8 flags.toNat
  | invalidConnAckFlags flags => "invalid connack flags 0b" ++ paddedDigits 2 8 flags.toNat
  | invalidSubscriptionOptions options =>
    "invalid subscription options 0b" ++ paddedDigits 2 8 options.toNat
  | wildcardInTopicName => "topic name contains wildcard characters"
  | emptyFilterList kind => kind.name ++ " must carry at least one topic filter"

/-- A short name for the error, without its details. -/
def EncodeError.label : EncodeError → String
  | fieldTooLong _ => "FieldTooLong"
  | packetTooLarge _ => "PacketTooLarge"
  | missingPacketId => "MissingPacketId"

def EncodeError.message : EncodeError → String
  | fieldTooLong size =>
    "field of " ++ toString size ++ " bytes does not fit a 16-bit length prefix"
  | packetTooLarge remaining =>
    "remaining length " ++ toString remaining ++ " exceeds 268435455"
  | missingPacketId => "PUBLISH at QoS > 0 needs a packet identifier"

end MqttBroker
