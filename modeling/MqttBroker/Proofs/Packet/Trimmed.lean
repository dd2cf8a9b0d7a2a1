import MqttBroker.Proofs.Packet.Size
/-!
Packets without what their level leaves off the wire. A packet is written as if it had never held
any of that.
-/

namespace MqttBroker

variable (v5 : Bool)

def Properties.trim (ps : Properties) : Properties := if v5 then ps else []

def ReasonTail.trim (tail : ReasonTail) : ReasonTail := if v5 then tail else {}

def Ack.trim (a : Ack) : Ack := { a with tail := a.tail.trim v5 }

/-- Below 5.0 only the QoS is asked for. -/
def SubscriptionOptions.trim (o : SubscriptionOptions) : SubscriptionOptions :=
  if v5 then o else { qos := o.qos }

def Will.trim (w : Will) : Will := { w with properties := w.properties.trim v5 }

/-- A CONNECT goes by its own level. -/
def Connect.trim (c : Connect) : Connect :=
  { c with properties := c.properties.trim c.isV5, will := c.will.map (Will.trim c.isV5) }

/-- QoS 0 goes without an identifier at every level. -/
def Publish.trim (p : Publish) : Publish :=
  { p with
    packetId := if p.qos = .atMostOnce then none else p.packetId
    properties := p.properties.trim v5 }

/-- Below 5.0 an UNSUBACK tells nothing of the single filters. -/
def UnsubAck.trim (u : UnsubAck) : UnsubAck :=
  if v5 then u else { packetId := u.packetId, reasonCodes := [] }

def Packet.trim (level : Level) : Packet → Packet
  | connect c => connect c.trim
  | connAck c => connAck { c with properties := c.properties.trim level.isV5 }
  | publish p => publish (p.trim level.isV5)
  | pubAck a => pubAck (a.trim level.isV5)
  | pubRec a => pubRec (a.trim level.isV5)
  | pubRel a => pubRel (a.trim level.isV5)
  | pubComp a => pubComp (a.trim level.isV5)
  | subscribe s => subscribe
    { s with
      properties := s.properties.trim level.isV5
      filters := s.filters.map fun (filter, options) => (filter, options.trim level.isV5) }
  | subAck s => subAck { s with properties := s.properties.trim level.isV5 }
  | unsubscribe u => unsubscribe { u with properties := u.properties.trim level.isV5 }
  | unsubAck u => unsubAck (u.trim level.isV5)
  | pingReq => pingReq
  | pingResp => pingResp
  | disconnect tail => disconnect (tail.trim level.isV5)
  | auth tail => auth tail

namespace Properties

theorem fieldsAt_trim (ps : Properties) : fieldsAt v5 (ps.trim v5) = fieldsAt v5 ps := by
  cases v5 <;> rfl

end Properties

theorem ReasonTail.fieldsAt_trim (tail : ReasonTail) :
    (tail.trim v5).fieldsAt v5 = tail.fieldsAt v5 := by
  cases v5 <;> rfl

theorem SubscriptionOptions.toByte_trim (o : SubscriptionOptions) :
    (o.trim v5).toByte v5 = o.toByte v5 := by
  cases v5 <;> rfl

theorem Will.fields_trim (w : Will) : (w.trim v5).fields v5 = w.fields v5 := by
  rw [fields, trim, Properties.fieldsAt_trim, fields]

theorem Connect.fields_trim (c : Connect) : c.trim.fields = c.fields := by
  have hflags : c.trim.flags = c.flags := by
    rw [flags, flags, trim]
    cases c.will <;> rfl
  have hwill : c.trim.will.elim [] (Will.fields c.isV5) = c.will.elim [] (Will.fields c.isV5) := by
    rw [trim]
    cases c.will with
    | none => rfl
    | some w => exact w.fields_trim c.isV5
  have hlevel : c.trim.isV5 = c.isV5 := rfl
  rw [fields, hflags, hlevel, hwill]
  simp only [trim, Properties.fieldsAt_trim, fields]

theorem Publish.fields_trim (p : Publish) : (p.trim v5).fields v5 = p.fields v5 := by
  have hid : (p.trim v5).idFields = p.idFields := by
    by_cases hqos : p.qos = .atMostOnce <;> simp only [idFields, trim, hqos, if_true, if_false]
  simp only [fields, hid]
  simp only [trim, Properties.fieldsAt_trim]

namespace Packet

variable (p : Packet) (level : Level)

theorem body_trim : (p.trim level).body level = p.body level := by
  cases p with
  | connect c => exact c.fields_trim
  | connAck c => simp only [trim, body, ConnAck.fields, Properties.fieldsAt_trim]
  | publish p => exact p.fields_trim _
  | pubAck a | pubRec a | pubRel a | pubComp a =>
    simp only [trim, body, Ack.trim, Ack.fields, ReasonTail.fieldsAt_trim]
  | subscribe s =>
    simp only [trim, body, Subscribe.fields, Properties.fieldsAt_trim, List.flatMap_map,
      SubscriptionOptions.toByte_trim]
  | subAck s => simp only [trim, body, SubAck.fields, Properties.fieldsAt_trim]
  | unsubscribe u => simp only [trim, body, Unsubscribe.fields, Properties.fieldsAt_trim]
  | unsubAck u =>
    simp only [trim, body, UnsubAck.trim, UnsubAck.fields]
    cases level.isV5 <;> rfl
  | pingReq | pingResp => rfl
  | disconnect tail => exact tail.fieldsAt_trim _
  | auth tail => rfl

theorem firstByte_trim : (p.trim level).firstByte = p.firstByte := by
  cases p <;> rfl

theorem lacksId_trim : (p.trim level).lacksId = p.lacksId := by
  cases p with
  | publish p =>
    simp only [trim, lacksId, Publish.lacksId, Publish.trim]
    by_cases hqos : p.qos = .atMostOnce <;> simp [hqos]
  | _ => rfl

theorem encode_trim : (p.trim level).encode level = p.encode level := by
  simp only [encode, appendTo, remainingLength_eq, body_trim, firstByte_trim, lacksId_trim]

end Packet

end MqttBroker
