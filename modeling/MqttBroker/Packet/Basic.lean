import MqttBroker.Packet.Ack
import MqttBroker.Packet.Connect
import MqttBroker.Packet.Publish
import MqttBroker.Packet.Subscribe
/-!
Control packets of every level as one type. What only exists at 5.0 is empty or zero in a packet of
an older level, and stays off the wire there.
-/

namespace MqttBroker

inductive Packet where
  | connect (c : Connect)
  | connAck (c : ConnAck)
  | publish (p : Publish)
  | pubAck (a : Ack)
  | pubRec (a : Ack)
  | pubRel (a : Ack)
  | pubComp (a : Ack)
  | subscribe (s : Subscribe)
  | subAck (s : SubAck)
  | unsubscribe (u : Unsubscribe)
  | unsubAck (u : UnsubAck)
  | pingReq
  | pingResp
  | disconnect (tail : ReasonTail)
  | auth (tail : ReasonTail)
deriving DecidableEq

namespace Packet

def kind : Packet → Kind
  | connect _ => .connect
  | connAck _ => .connAck
  | publish _ => .publish
  | pubAck _ => .pubAck
  | pubRec _ => .pubRec
  | pubRel _ => .pubRel
  | pubComp _ => .pubComp
  | subscribe _ => .subscribe
  | subAck _ => .subAck
  | unsubscribe _ => .unsubscribe
  | unsubAck _ => .unsubAck
  | pingReq => .pingReq
  | pingResp => .pingResp
  | disconnect _ => .disconnect
  | auth _ => .auth

/-- The low nibble of the first byte. -/
def flags : Packet → Nat
  | publish p => p.flags
  | p => (p.kind.fixedFlags?.getD 0).toNat

def firstByte (p : Packet) : UInt8 := UInt8.ofNat (16 * p.kind.code + p.flags)

/-- The fields of the packet's body at a level. A CONNECT follows its own level byte, and an AUTH
has its 5.0 form at every level. -/
def body (level : Level) : Packet → List Field
  | connect c => c.fields
  | connAck c => c.fields level.isV5
  | publish p => p.fields level.isV5
  | pubAck a | pubRec a | pubRel a | pubComp a => a.fields level.isV5
  | subscribe s => s.fields level.isV5
  | subAck s => s.fields level.isV5
  | unsubscribe u => u.fields level.isV5
  | unsubAck u => u.fields level.isV5
  | pingReq | pingResp => []
  | disconnect tail => tail.fieldsAt level.isV5
  | auth tail => tail.fields

/-- The size of the body. It stands in front of the body, so it is worked out from the packet. -/
def remainingLength (p : Packet) (level : Level) : Nat :=
  match p with
  | connect c => c.size
  | connAck c => c.size level.isV5
  | publish p => p.size level.isV5
  | pubAck a | pubRec a | pubRel a | pubComp a => a.size level.isV5
  | subscribe s => s.size level.isV5
  | subAck s => s.size level.isV5
  | unsubscribe u => u.size level.isV5
  | unsubAck u => u.size level.isV5
  | pingReq | pingResp => 0
  | disconnect tail => tail.sizeAt level.isV5
  | auth tail => tail.size

/-- The size of the whole packet on the wire, known before anything is written. -/
def encodedLength (p : Packet) (level : Level) : Nat :=
  let remaining := p.remainingLength level
  1 + Varint.size remaining + remaining

def lacksId : Packet → Bool
  | publish p => p.lacksId
  | _ => false

/-- Puts the packet behind `out`, and tells how many bytes have been added. -/
def appendTo (out : Bytes) (p : Packet) (level : Level) : Except EncodeError (Bytes × Nat) := do
  let remaining := p.remainingLength level
  if Varint.limit < remaining then throw (.packetTooLarge remaining)
  if p.lacksId then throw .missingPacketId
  let length := Varint.encode remaining
  let content ← Field.writeAll (p.body level)
  return (out ++ (p.firstByte :: length ++ content), 1 + length.length + remaining)

def encode (p : Packet) (level : Level) : Except EncodeError Bytes :=
  Prod.fst <$> appendTo [] p level

/-- Reads a body of the given kind; `flags` is the low nibble of the first byte. -/
def readBody {σ : Type} [Source σ] (kind : Kind) (flags : UInt8) (level : Level) :
    FieldReader σ Packet :=
  let v5 := level.isV5
  match kind with
  | .connect => connect <$> Connect.read
  | .connAck => connAck <$> ConnAck.read v5
  | .publish => publish <$> Publish.read flags v5
  | .pubAck => pubAck <$> Ack.read v5
  | .pubRec => pubRec <$> Ack.read v5
  | .pubRel => pubRel <$> Ack.read v5
  | .pubComp => pubComp <$> Ack.read v5
  | .subscribe => subscribe <$> Subscribe.read v5
  | .subAck => subAck <$> SubAck.read v5
  | .unsubscribe => unsubscribe <$> Unsubscribe.read v5
  | .unsubAck => unsubAck <$> UnsubAck.read v5
  | .pingReq => pure pingReq
  | .pingResp => pure pingResp
  | .disconnect => disconnect <$> ReasonTail.readAt v5
  | .auth => if v5 then auth <$> ReasonTail.read else throw (.invalidPacketType kind.code)

end Packet

end MqttBroker
