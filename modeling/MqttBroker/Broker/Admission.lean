import MqttBroker.Packet.Basic
import MqttBroker.Session.Closing
import MqttBroker.Settings
/-! Which CONNECTs are accepted, and with what CONNACK. -/

namespace MqttBroker

/-- What a level makes of an empty client identifier. -/
inductive EmptyClientId where
  | rejected
  /-- The broker picks one for a clean session. -/
  | assignedIfClean
  /-- The broker picks one and says so in the CONNACK. -/
  | assigned
deriving DecidableEq

def EmptyClientId.label : EmptyClientId → String
  | rejected => "Rejected"
  | assignedIfClean => "AssignedIfClean"
  | assigned => "Assigned"

namespace Level

/-- The longest client identifier, in bytes, where there is a limit. -/
def maxClientIdLength : Level → Option Nat
  | v31 => some 23
  | v311 | v5 => none

def emptyClientId : Level → EmptyClientId
  | v31 => .rejected
  | v311 => .assignedIfClean
  | v5 => .assigned

def acceptsName (level : Level) (name : Bytes) : Bool := name == level.protocolName

def refusalCode (level : Level) : Refusal → UInt8
  | .unsupportedProtocolVersion =>
    if level.isV5 then ReasonCode.unsupportedProtocolVersion
    else ReturnCode.unacceptableProtocolVersion
  | .invalidClientId =>
    if level.isV5 then ReasonCode.clientIdentifierNotValid else ReturnCode.identifierRejected
  | .invalidCredentials =>
    if level.isV5 then ReasonCode.badUserNameOrPassword else ReturnCode.badUserNameOrPassword

end Level

/-- The check of user names and passwords, which the application around the broker supplies. It
touches nothing of the broker, so the time it takes is the time before the CONNECT is decided on. -/
structure Authenticator where
  accepts (username password : Bytes) : Bool

namespace Authenticator

/-- A missing user name or password counts as empty. -/
def admits (a : Authenticator) (c : Connect) : Bool :=
  a.accepts (c.username.getD []) (c.password.getD [])

end Authenticator

/-- The one user name and password pair that is let in. -/
structure Credentials where
  username : Bytes
  password : Bytes
deriving DecidableEq

namespace Credentials

def authenticator (expected : Credentials) : Authenticator where
  accepts username password := username == expected.username && password == expected.password

instance : Coe (Option Credentials) (Option Authenticator) := ⟨Option.map authenticator⟩

end Credentials

/-- A CONNECT that may open a session. -/
structure Accepted where
  level : Level
  clientId : String
  /-- The client left the choice of `clientId` to the broker. -/
  assigned : Bool := false
deriving DecidableEq

/-- A refused CONNECT, with the level its CONNACK is written at. -/
structure Rejection where
  level : Level
  cause : Refusal
deriving DecidableEq

namespace Rejection

def connAck (r : Rejection) : Packet := .connAck { code := r.level.refusalCode r.cause }

def message (r : Rejection) : String := "connect rejected: " ++ r.cause.label

/-- The bytes to send before closing. -/
def bytes (r : Rejection) : Bytes := (r.connAck.encode r.level).toOption.getD []

end Rejection

namespace Admission

/-- The level a CONNECT is served at. A 5.0 client is refused in its own words. -/
def level (enabled : EnabledLevels) (c : Connect) : Except Rejection Level :=
  let refuse (level : Level) := Except.error { level, cause := .unsupportedProtocolVersion }
  match c.level? with
  | some level =>
    if enabled.has level && level.acceptsName c.protocolName then .ok level
    else if level = .v5 && enabled.v5 then refuse .v5
    else refuse .v311
  | none => refuse .v311

/-- The client id a CONNECT is served under; `made` is the one to assign if the choice is left to
the broker. -/
def clientId (level : Level) (made : String) (c : Connect) : Except Rejection (String × Bool) :=
  let refuse := Except.error { level, cause := .invalidClientId }
  match c.clientId.toText? with
  | none => refuse
  | some id =>
    if c.clientId.isEmpty then
      match level.emptyClientId with
      | .assigned => .ok (made, true)
      | .assignedIfClean => if c.cleanSession then .ok (made, true) else refuse
      | .rejected => refuse
    else match level.maxClientIdLength with
      | some longest => if longest < c.clientId.length then refuse else .ok (id, false)
      | none => .ok (id, false)

/-- Level, client id and credentials, in this order. -/
def check (limits : Limits) (credentials : Option Authenticator) (made : String) (c : Connect) :
    Except Rejection Accepted := do
  let level ← level limits.levels c
  let (clientId, assigned) ← clientId level made c
  match credentials with
  | some authenticator =>
    if authenticator.admits c then return { level, clientId, assigned }
    else throw { level, cause := .invalidCredentials }
  | none => return { level, clientId, assigned }

/-- The positive CONNACK. At 5.0 it tells the client its id and the broker's limits. -/
def connAck (limits : Limits) (a : Accepted) (sessionPresent : Bool) : ConnAck where
  sessionPresent := sessionPresent
  code := ReasonCode.success
  properties :=
    if a.level.isV5 then
      (if a.assigned then [⟨.assignedClientIdentifier, a.clientId⟩] else [])
        ++ [⟨.receiveMaximum, limits.receiveMaximum⟩,
          ⟨.maximumPacketSize, UInt32.ofNat (min limits.maxPacketSize 4294967295)⟩,
          ⟨.subscriptionIdentifierAvailable, (0 : UInt8)⟩,
          ⟨.sharedSubscriptionAvailable, (0 : UInt8)⟩]
    else []

end Admission

end MqttBroker
