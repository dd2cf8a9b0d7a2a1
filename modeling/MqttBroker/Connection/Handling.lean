import MqttBroker.Connection.Link
/-!
What the broker does with a packet of a client that is past its CONNECT. Each packet is handled
whole before the next one is read; answers go through the session's outbox.
-/

namespace MqttBroker

/-- What an observer of the broker is told. -/
inductive Event where
  | published (clientId : String) (m : Message)
  | subscribed (clientId : String) (requests : List (Bytes × QoS)) (granted : List (Option QoS))
  | unsubscribed (clientId : String) (filters : List Bytes)
deriving DecidableEq

/-- What a connection holds once it is bound to a session. -/
structure Binding where
  session : SessionId
  lease : LeaseId
  link : Link
deriving DecidableEq

inductive Verdict where
  | proceed
  /-- The client has said goodbye. -/
  | done
  | failed (error : SessionError)
deriving DecidableEq

/-- The broker and the connection after a packet was handled. -/
structure Handled where
  broker : Broker
  binding : Binding
  events : List Event := []
  verdict : Verdict := .proceed

namespace Handled

def fail (h : Handled) (error : SessionError) : Handled := { h with verdict := .failed error }

def tell (h : Handled) (event : Event) : Handled := { h with events := h.events ++ [event] }

def session (h : Handled) : Session := h.broker.session h.binding.session

def putSession (h : Handled) (s : Session) : Handled :=
  { h with broker := h.broker.putSession h.binding.session s }

def v5 (h : Handled) : Bool := h.binding.link.level.isV5

/-- Queues a control packet for the client. -/
def send (h : Handled) (p : Packet) : Handled :=
  match p.encode h.binding.link.level with
  | .error cause => h.fail (.encode cause)
  | .ok bytes => match h.session.enqueue? (.control bytes) with
    | some s => h.putSession s
    | none => h.fail .queueOverflow

/-- Routes a message of this client, and counts the sessions that queued it. -/
def publish (h : Handled) (m : Message) : Handled × Nat :=
  let told := h.tell (.published h.binding.link.clientId m)
  let (broker, count) := told.broker.dispatch m
  ({ told with broker }, count)

/-- Left off the wire below 5.0. -/
def deliveryReason (count : Nat) : UInt8 :=
  if count = 0 then ReasonCode.noMatchingSubscribers else ReasonCode.success

def onPublish (h : Handled) (p : Publish) : Handled :=
  if !Topic.isValidName p.topic then h.fail .topicNameInvalid
  else
    let m := Message.ofPublish p
    match p.qos, p.packetId with
    | .atMostOnce, _ => (h.publish m).1
    | .atLeastOnce, some id =>
      let (h', count) := h.publish m
      h'.send (.pubAck (Ack.withReason id (deliveryReason count)))
    | .exactlyOnce, some id =>
      if h.session.isPending id then h.send (.pubRec (Ack.withReason id ReasonCode.success))
      else if h.binding.link.maxReceive ≤ h.session.incoming.length then
        h.fail .receiveMaximumExceeded
      else
        let (h', count) := (h.putSession (h.session.beginIncoming id).1).publish m
        h'.send (.pubRec (Ack.withReason id (deliveryReason count)))
    | _, none => h.fail (.protocolViolation "PUBLISH above QoS 0 without packet id")

/-- An answer to an identifier that stands for nothing, which only 5.0 has. -/
def sendUnknown (h : Handled) (id : UInt16) (answer : Ack → Packet) : Handled :=
  if h.v5 then h.send (answer (Ack.withReason id ReasonCode.packetIdentifierNotFound)) else h

/-- At 5.0 a reason of 0x80 or more refuses the message and ends its exchange. -/
def onPubRec (h : Handled) (a : Ack) : Handled :=
  if h.v5 && 0x80 ≤ a.reason then h.putSession (h.session.abandon a.packetId).1
  else match h.session.received a.packetId with
    | (s, true) => (h.putSession s).send (.pubRel { packetId := a.packetId })
    | (_, false) => h.sendUnknown a.packetId .pubRel

def onPubRel (h : Handled) (id : UInt16) : Handled :=
  match h.session.releaseIncoming id with
  | (s, true) => (h.putSession s).send (.pubComp { packetId := id })
  | (_, false) => h.sendUnknown id .pubComp

def grantCode (v5 : Bool) : Option QoS → UInt8
  | some qos => qos.code
  | none => if v5 then ReasonCode.topicFilterInvalid else ReturnCode.subscriptionFailure

def onSubscribe (h : Handled) (p : Subscribe) : Handled :=
  let requests := p.filters.map fun (filter, options) => (filter, options.qos)
  let granted := requests.map Subscriptions.grant
  let s := h.session
  let held := h.putSession { s with subscriptions := s.subscriptions.subscribe requests }
  (held.tell (.subscribed h.binding.link.clientId requests granted)).send
    (.subAck { packetId := p.packetId, returnCodes := granted.map (grantCode h.v5) })

def onUnsubscribe (h : Handled) (p : Unsubscribe) : Handled :=
  let s := h.session
  let (subscriptions, found) := s.subscriptions.unsubscribe p.filters
  let codes := found.map fun held =>
    if held then ReasonCode.success else ReasonCode.noSubscriptionExisted
  ((h.putSession { s with subscriptions }).tell
      (.unsubscribed h.binding.link.clientId p.filters)).send
    (.unsubAck { packetId := p.packetId, reasonCodes := if h.v5 then codes else [] })

/-- A normal DISCONNECT takes the will back. At 5.0 it may also change how long the session is kept,
but not make a session last that was to end with its connection. -/
def onDisconnect (h : Handled) (p : ReasonTail) : Handled :=
  let h :=
    if !h.v5 || p.code = ReasonCode.normalDisconnection then h.putSession h.session.takeWill.1
    else h
  let expiry := if h.v5 then Properties.sessionExpiryInterval? p.properties else none
  let leave (h : Handled) : Handled :=
    { h with broker := h.broker.closeLease h.binding.lease .clientDisconnect, verdict := .done }
  match expiry with
  | none => leave h
  | some expiry =>
    if h.binding.link.sessionExpiry = 0 && 0 < expiry then
      h.fail (.protocolViolation "session expiry raised from zero on DISCONNECT")
    else
      let link := { h.binding.link with persistent := 0 < expiry }
      leave { h with binding := { h.binding with link } }

def onPacket (h : Handled) : Packet → Handled
  | .publish p => h.onPublish p
  | .pubAck a => h.putSession (h.session.ack a.packetId).1
  | .pubRec a => h.onPubRec a
  | .pubRel a => h.onPubRel a.packetId
  | .pubComp a => h.putSession (h.session.complete a.packetId).1
  | .subscribe p => h.onSubscribe p
  | .unsubscribe p => h.onUnsubscribe p
  | .pingReq => h.send .pingResp
  | .disconnect tail => h.onDisconnect tail
  | .connect _ => h.fail (.protocolViolation "second CONNECT")
  | .auth _ => h.fail (.protocolViolation "enhanced authentication is not supported")
  | .connAck _ | .subAck _ | .unsubAck _ | .pingResp =>
    h.fail (.protocolViolation "server-to-client packet sent by client")

end Handled

/-- Handles one packet of a bound connection. -/
def Broker.handle (b : Broker) (binding : Binding) (p : Packet) : Handled :=
  Handled.onPacket { broker := b, binding } p

end MqttBroker
