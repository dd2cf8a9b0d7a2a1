/-! The vocabulary of the protocol: levels, qualities of service and kinds of control packet. -/

namespace MqttBroker

/-- The protocol levels a broker speaks: 3.1, 3.1.1 and 5.0. -/
inductive Level where
  | v31
  | v311
  | v5
deriving DecidableEq, Inhabited

namespace Level

/-- The level byte of a CONNECT. -/
def wire : Level → UInt8
  | v31 => 3
  | v311 => 4
  | v5 => 5

def ofWire? : UInt8 → Option Level
  | 3 => some v31
  | 4 => some v311
  | 5 => some v5
  | _ => none

/-- The name is `MQIsdp` at 3.1 and `MQTT` afterwards. -/
def protocolName : Level → List UInt8
  | v31 => [0x4D, 0x51, 0x49, 0x73, 0x64, 0x70]
  | v311 | v5 => [0x4D, 0x51, 0x54, 0x54]

def isV5 (level : Level) : Bool := level = v5

def label : Level → String
  | v31 => "3.1"
  | v311 => "3.1.1"
  | v5 => "5"

def ofLabel? : String → Option Level
  | "3.1" => some v31
  | "3.1.1" => some v311
  | "5" => some v5
  | _ => none

theorem ofWire?_wire (level : Level) : ofWire? level.wire = some level := by
  cases level <;> rfl

theorem ofLabel?_label (level : Level) : ofLabel? level.label = some level := by
  cases level <;> rfl

end Level

inductive QoS where
  | atMostOnce
  | atLeastOnce
  | exactlyOnce
deriving DecidableEq, Inhabited

namespace QoS

def rank : QoS → Nat
  | atMostOnce => 0
  | atLeastOnce => 1
  | exactlyOnce => 2

def code (qos : QoS) : UInt8 := UInt8.ofNat qos.rank

def ofCode? : UInt8 → Option QoS
  | 0 => some atMostOnce
  | 1 => some atLeastOnce
  | 2 => some exactlyOnce
  | _ => none

def label : QoS → String
  | atMostOnce => "AtMostOnce"
  | atLeastOnce => "AtLeastOnce"
  | exactlyOnce => "ExactlyOnce"

instance : LE QoS := ⟨fun a b => a.rank ≤ b.rank⟩

instance (a b : QoS) : Decidable (a ≤ b) := inferInstanceAs (Decidable (a.rank ≤ b.rank))

instance : Min QoS := minOfLe

instance : Max QoS := maxOfLe

theorem ofCode?_code (qos : QoS) : ofCode? qos.code = some qos := by cases qos <;> rfl

theorem code_of_ofCode? {value : UInt8} {qos : QoS} (h : ofCode? value = some qos) :
    qos.code = value := by
  unfold ofCode? at h
  split at h <;> cases h <;> rfl

theorem toNat_code (qos : QoS) : qos.code.toNat = qos.rank := by cases qos <;> rfl

end QoS

/-- What a control packet is, by the high nibble of its first byte. -/
inductive Kind where
  | connect
  | connAck
  | publish
  | pubAck
  | pubRec
  | pubRel
  | pubComp
  | subscribe
  | subAck
  | unsubscribe
  | unsubAck
  | pingReq
  | pingResp
  | disconnect
  | auth
deriving DecidableEq, Inhabited

namespace Kind

def code : Kind → Nat
  | connect => 1
  | connAck => 2
  | publish => 3
  | pubAck => 4
  | pubRec => 5
  | pubRel => 6
  | pubComp => 7
  | subscribe => 8
  | subAck => 9
  | unsubscribe => 10
  | unsubAck => 11
  | pingReq => 12
  | pingResp => 13
  | disconnect => 14
  | auth => 15

def ofCode? : Nat → Option Kind
  | 1 => some connect
  | 2 => some connAck
  | 3 => some publish
  | 4 => some pubAck
  | 5 => some pubRec
  | 6 => some pubRel
  | 7 => some pubComp
  | 8 => some subscribe
  | 9 => some subAck
  | 10 => some unsubscribe
  | 11 => some unsubAck
  | 12 => some pingReq
  | 13 => some pingResp
  | 14 => some disconnect
  | 15 => some auth
  | _ => none

/-- The low nibble every packet of this kind carries. A PUBLISH uses its nibble for itself. -/
def fixedFlags? : Kind → Option UInt8
  | publish => none
  | pubRel | subscribe | unsubscribe => some 2
  | _ => some 0

def name : Kind → String
  | connect => "Connect"
  | connAck => "ConnAck"
  | publish => "Publish"
  | pubAck => "PubAck"
  | pubRec => "PubRec"
  | pubRel => "PubRel"
  | pubComp => "PubComp"
  | subscribe => "Subscribe"
  | subAck => "SubAck"
  | unsubscribe => "Unsubscribe"
  | unsubAck => "UnsubAck"
  | pingReq => "PingReq"
  | pingResp => "PingResp"
  | disconnect => "Disconnect"
  | auth => "Auth"

theorem ofCode?_code (kind : Kind) : ofCode? kind.code = some kind := by cases kind <;> rfl

theorem code_pos (kind : Kind) : 0 < kind.code := by cases kind <;> decide

theorem code_lt (kind : Kind) : kind.code < 16 := by cases kind <;> decide

theorem code_of_ofCode? {n : Nat} {kind : Kind} (h : ofCode? n = some kind) : kind.code = n := by
  unfold ofCode? at h
  split at h <;> cases h <;> rfl

end Kind

end MqttBroker
