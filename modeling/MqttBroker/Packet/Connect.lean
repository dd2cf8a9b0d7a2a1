import MqttBroker.Packet.Element
/-! CONNECT and its answer CONNACK. -/

namespace MqttBroker

/-- The message a client leaves to be published if it goes away without saying so. -/
structure Will where
  topic : Bytes
  payload : Bytes
  qos : QoS
  retain : Bool
  properties : Properties
deriving DecidableEq

/-- A request to open a session. Name and level stay as received, so that a level the broker does
not speak can still be answered. -/
structure Connect where
  protocolName : Bytes
  protocolLevel : UInt8
  cleanSession : Bool
  keepAlive : UInt16
  properties : Properties
  clientId : Bytes
  will : Option Will
  username : Option Bytes
  password : Option Bytes
deriving DecidableEq

structure ConnAck where
  sessionPresent : Bool := false
  code : UInt8 := 0
  properties : Properties := []
deriving DecidableEq

/-- The flag byte of a CONNECT, taken apart. -/
structure ConnectFlags where
  reserved : Bool
  clean : Bool
  will : Bool
  willQoS : UInt8
  willRetain : Bool
  password : Bool
  username : Bool
deriving DecidableEq

namespace ConnectFlags

def ofByte (b : UInt8) : ConnectFlags where
  reserved := Flag.test b 0
  clean := Flag.test b 1
  will := Flag.test b 2
  willQoS := UInt8.ofNat (b.toNat / 8 % 4)
  willRetain := Flag.test b 5
  password := Flag.test b 6
  username := Flag.test b 7

def toByte (f : ConnectFlags) : UInt8 :=
  UInt8.ofNat
    (Flag.weight 0 f.reserved + Flag.weight 1 f.clean + Flag.weight 2 f.will + 8 * f.willQoS.toNat
      + Flag.weight 5 f.willRetain + Flag.weight 6 f.password + Flag.weight 7 f.username)

/-- The reserved bit is clear, a will's QoS and retain bits come with a will, and below 5.0 a
password comes with a user name. -/
def isValid (v5 : Bool) (f : ConnectFlags) : Bool :=
  !f.reserved && (f.will || (f.willQoS == 0 && !f.willRetain)) && (v5 || !f.password || f.username)

end ConnectFlags

namespace Connect

/-- A CONNECT with the name and level of `level` and nothing optional. -/
def plain (level : Level) (clientId : Bytes) : Connect where
  protocolName := level.protocolName
  protocolLevel := level.wire
  cleanSession := true
  keepAlive := 0
  properties := []
  clientId := clientId
  will := none
  username := none
  password := none

def level? (c : Connect) : Option Level := Level.ofWire? c.protocolLevel

/-- A CONNECT is laid out by its own level byte. -/
def isV5 (c : Connect) : Bool := c.protocolLevel == Level.v5.wire

def flags (c : Connect) : ConnectFlags where
  reserved := false
  clean := c.cleanSession
  will := c.will.isSome
  willQoS := match c.will with
    | some w => w.qos.code
    | none => 0
  willRetain := match c.will with
    | some w => w.retain
    | none => false
  password := c.password.isSome
  username := c.username.isSome

end Connect

namespace Will

def fields (v5 : Bool) (w : Will) : List Field :=
  Properties.fieldsAt v5 w.properties ++ [.binary w.topic, .binary w.payload]

def size (v5 : Bool) (w : Will) : Nat :=
  Properties.sizeAt v5 w.properties + Field.prefixedSize w.topic + Field.prefixedSize w.payload

def read {σ : Type} [Source σ] (v5 : Bool) (flags : ConnectFlags) : FieldReader σ Will := do
  let properties ← Properties.readAt v5
  let topic ← FieldReader.topicName
  let payload ← FieldReader.binary
  let qos ← FieldReader.qosOf flags.willQoS
  return { topic, payload, qos, retain := flags.willRetain, properties }

end Will

namespace Connect

def fields (c : Connect) : List Field :=
  .binary c.protocolName :: .byte c.protocolLevel :: .byte c.flags.toByte :: .word c.keepAlive
    :: (Properties.fieldsAt c.isV5 c.properties ++ .binary c.clientId
    :: (c.will.elim [] (Will.fields c.isV5)
    ++ (c.username.elim [] (fun name => [.binary name])
    ++ c.password.elim [] fun secret => [.binary secret])))

def size (c : Connect) : Nat :=
  Field.prefixedSize c.protocolName + 1 + 1 + 2 + Properties.sizeAt c.isV5 c.properties
    + Field.prefixedSize c.clientId + c.will.elim 0 (Will.size c.isV5)
    + c.username.elim 0 Field.prefixedSize + c.password.elim 0 Field.prefixedSize

def read {σ : Type} [Source σ] : FieldReader σ Connect := do
  let protocolName ← FieldReader.utf8
  let protocolLevel ← FieldReader.byte
  let flagByte ← FieldReader.byte
  let keepAlive ← FieldReader.word
  let v5 := protocolLevel == Level.v5.wire
  let flags := ConnectFlags.ofByte flagByte
  FieldReader.refuseIf (!flags.isValid v5) (.invalidConnectFlags flagByte)
  let properties ← Properties.readAt v5
  let clientId ← FieldReader.utf8
  let will ← FieldReader.optional flags.will (Will.read v5 flags)
  let username ← FieldReader.optional flags.username FieldReader.utf8
  let password ← FieldReader.optional flags.password FieldReader.binary
  return { protocolName, protocolLevel, cleanSession := flags.clean, keepAlive, properties,
           clientId, will, username, password }

end Connect

namespace ConnAck

def fields (v5 : Bool) (c : ConnAck) : List Field :=
  .byte (UInt8.ofNat (Flag.weight 0 c.sessionPresent)) :: .byte c.code
    :: Properties.fieldsAt v5 c.properties

def size (v5 : Bool) (c : ConnAck) : Nat := 2 + Properties.sizeAt v5 c.properties

def read {σ : Type} [Source σ] (v5 : Bool) : FieldReader σ ConnAck := do
  let flags ← FieldReader.byte
  FieldReader.refuseIf (2 ≤ flags) (.invalidConnAckFlags flags)
  let code ← FieldReader.byte
  let properties ← Properties.readAt v5
  return { sessionPresent := Flag.test flags 0, code, properties }

end ConnAck

end MqttBroker
