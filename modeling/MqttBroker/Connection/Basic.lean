import MqttBroker.Connection.Handling
import MqttBroker.Connection.Inbox
import MqttBroker.Connection.Pipe
import MqttBroker.Connection.Writer
/-!
The life of a connection: it awaits a CONNECT, is refused or takes over from an earlier connection
of its client, greets the client, serves it, lets its writer finish, and releases its session.
Every step ends where the connection waits, so that steps of different connections can alternate
freely.
-/

namespace MqttBroker

namespace Connection

abbrev Result := Except SessionError Unit

inductive Phase where
  | awaiting (deadline : Nat)
  /-- Sending the rest of a negative CONNACK. -/
  | refusing (rest : Bytes) (cause : Refusal)
  /-- Waiting for the owner of the session to let go of it. -/
  | takingOver (c : Connect) (accepted : Accepted) (owner : LeaseId)
  /-- Sending the rest of the positive CONNACK. -/
  | greeting (binding : Binding) (rest : Bytes)
  | serving (binding : Binding) (deadline : Option Nat) (writer : Writer)
  /-- No more packets are read; the writer is still at work. -/
  | draining (binding : Binding) (result : Result) (writer : Writer)
  | ended (result : Result)

end Connection

structure Connection where
  inbox : Inbox
  inbound : Pipe
  outbound : Pipe
  phase : Connection.Phase

namespace Connection

/-- A new connection over pipes of the given capacity. -/
def accept (limits : Limits) (now capacity : Nat) : Connection where
  inbox := { maxPacketSize := limits.maxPacketSize }
  inbound := { capacity }
  outbound := { capacity }
  phase := .awaiting (now + limits.connectTimeoutMillis)

structure Turn where
  broker : Broker
  connection : Connection
  events : List Event := []

def enter (c : Connection) (b : Broker) (phase : Phase) : Turn :=
  { broker := b, connection := { c with phase } }

/-- The end of a connection ends its stream in both directions. -/
def close (c : Connection) (b : Broker) (result : Result) : Turn :=
  { broker := b
    connection :=
      { c with inbound := c.inbound.close, outbound := c.outbound.close, phase := .ended result } }

/-! ### Reading -/

inductive Incoming where
  | packet (p : Packet) (c : Connection)
  | failed (error : SessionError)
  /-- The stream ended between packets. -/
  | finished
  /-- Bytes were moved to the inbox. -/
  | more (c : Connection)
  | nothing

def receive (c : Connection) : Incoming :=
  match c.inbox.next with
  | .packet p inbox => .packet p { c with inbox }
  | .malformed cause => .failed (.malformedPacket cause)
  | .incomplete =>
    if !c.inbound.held.isEmpty then
      let (chunk, inbound) := c.inbound.read
      .more { c with inbox := c.inbox.feed chunk, inbound }
    else if c.inbound.closed then
      if c.inbox.buffer.isEmpty then .finished else .failed (.transport .unexpectedEnd)
    else .nothing

/-! ### Ending -/

/-- Publishes the will if it is still there, gives the session back, and keeps or drops it. -/
def release (b : Broker) (binding : Binding) : Broker :=
  let id := binding.session
  let b := b.updateSession id fun s => { s with active := false }
  let (s, will) := (b.session id).takeWill
  let b := b.putSession id s
  let b := match will with
    | some m => (b.dispatch m).1
    | none => b
  let b := (b.detach id binding.lease).1
  let b :=
    if binding.link.persistent then
      b.updateSession id fun s => { s with outbox := s.outbox.discardTransient }
    else b.unregister id
  b.releaseLease binding.lease

/-- How a connection without an error of its own ended, by the reason recorded for closing it. -/
def resultOf : CloseReason → Result
  | .keepAliveTimeout => .error .keepAliveTimeout
  | .queueOverflow => .error .queueOverflow
  | _ => .ok ()

/-- Asks the connection itself to close after an error. -/
def recordError (b : Broker) (binding : Binding) : Result → Broker
  | .error error => b.closeLease binding.lease (CloseReason.ofError error)
  | .ok () => b

def conclude (c : Connection) (b : Broker) (binding : Binding) (result : Result) : Turn :=
  let b := recordError b binding result
  let reason := ((b.lease binding.lease).reason).getD .connectionLost
  let final := match result with
    | .error error => .error error
    | .ok () => resultOf reason
  c.close (release b binding) final

/-! ### Connecting -/

/-- Binds an accepted CONNECT to a session and starts the greeting. -/
def bind (c : Connection) (b : Broker) (connect : Connect) (accepted : Accepted) : Turn :=
  let (b, id, present) := b.openSession accepted.clientId connect.cleanSession
  let (b, lease) := b.newLease
  let (b, previous) := b.attach id lease
  let b := match previous with
    | some owner => b.closeLease owner .takenOver
    | none => b
  let binding := { session := id, lease, link := Link.negotiate b.limits accepted connect }
  let b := b.updateSession id fun s => { s with will := connect.will.map Message.ofWill }
  match Packet.encode (.connAck (Admission.connAck b.limits accepted present)) accepted.level with
  | .ok bytes => c.enter b (.greeting binding bytes)
  | .error cause => c.conclude b binding (.error (.encode cause))

/-- Decides on a CONNECT. -/
def meet (c : Connection) (b : Broker) (connect : Connect) : Turn :=
  match b.validate connect with
  | (b, .error rejection) => c.enter b (.refusing rejection.bytes rejection.cause)
  | (b, .ok accepted) =>
    let c := { c with inbox := { c.inbox with level := accepted.level } }
    match b.takeOver accepted.clientId with
    | (b, none) => c.bind b connect accepted
    | (b, some owner) => c.enter b (.takingOver connect accepted owner)

def await (now : Nat) (b : Broker) (c : Connection) (deadline : Nat) : Option Turn :=
  match c.receive with
  | .packet (.connect connect) c => some (c.meet b connect)
  | .packet _ c => some (c.close b (.error .missingConnect))
  | .failed error => some (c.close b (.error error))
  | .finished => some (c.close b (.ok ()))
  | .more c => some { broker := b, connection := c }
  | .nothing => if deadline ≤ now then some (c.close b (.error .connectTimeout)) else none

def refuse (b : Broker) (c : Connection) (rest : Bytes) (cause : Refusal) : Option Turn :=
  if rest.isEmpty then
    some ({ c with outbound := c.outbound.flush }.close b (.error (.refused cause)))
  else match c.outbound.room with
    | none => some (c.close b (.error (.transport .brokenPipe)))
    | some 0 => none
    | some room =>
      let c := { c with outbound := c.outbound.write (rest.take room) }
      some (c.enter b (.refusing (rest.drop room) cause))

/-- The client has its CONNACK: the session is active and its writer starts. -/
def activate (now : Nat) (b : Broker) (c : Connection) (binding : Binding) : Turn :=
  let b := b.updateSession binding.session fun s => { s with active := true }
  let writer := Writer.start binding.link b.limits.maxUnflushedBytes
  let deadline := binding.link.keepAlive.map (now + ·)
  { c with outbound := c.outbound.flush }.enter b (.serving binding deadline writer)

/-- Sends the CONNACK unless the connection is asked to close before it is out. -/
def greet (now : Nat) (closeFirst : Bool) (b : Broker) (c : Connection) (binding : Binding)
    (rest : Bytes) : Option Turn :=
  let asked := (b.lease binding.lease).reason.isSome
  if asked && closeFirst then some (c.conclude b binding (.ok ()))
  else match c.outbound.room with
    | none => some (c.conclude b binding (.error (.transport .brokenPipe)))
    | some 0 => if asked then some (c.conclude b binding (.ok ())) else none
    | some room =>
      let c := { c with outbound := c.outbound.write (rest.take room) }
      if (rest.drop room).isEmpty then some (c.activate now b binding)
      else some (c.enter b (.greeting binding (rest.drop room)))

/-! ### Serving -/

/-- Stops reading; an error is recorded as the reason for closing. -/
def drain (c : Connection) (b : Broker) (binding : Binding) (writer : Writer) (result : Result) :
    Turn :=
  c.enter (recordError b binding result) (.draining binding result writer)

/-- Handles a packet and waits for the next one; the keep-alive starts anew. -/
def handle (now : Nat) (b : Broker) (c : Connection) (binding : Binding) (writer : Writer)
    (p : Packet) : Turn :=
  let h := b.handle binding p
  let turn := match h.verdict with
    | .proceed =>
      let deadline := h.binding.link.keepAlive.map (now + ·)
      c.enter h.broker (.serving h.binding deadline writer)
    | .done => c.drain h.broker h.binding writer (.ok ())
    | .failed error => c.drain h.broker h.binding writer (.error error)
  { turn with events := h.events }

def serve (now : Nat) (closeFirst : Bool) (b : Broker) (c : Connection) (binding : Binding)
    (deadline : Option Nat) (writer : Writer) : Option Turn :=
  let asked := (b.lease binding.lease).reason.isSome
  if asked && closeFirst then some (c.drain b binding writer (.ok ()))
  else match c.receive with
    | .packet p c => some (c.handle now b binding writer p)
    | .failed error => some (c.drain b binding writer (.error error))
    | .finished =>
      some (c.drain (b.closeLease binding.lease .connectionLost) binding writer (.ok ()))
    | .more c => some { broker := b, connection := c }
    | .nothing =>
      if deadline.any (· ≤ now) then
        some (c.drain b binding writer (.error .keepAliveTimeout))
      else if asked then some (c.drain b binding writer (.ok ()))
      else none

/-- What the connection does next apart from its writer, or `none` while it has to wait. With
`closeFirst` it looks at a request to close before anything else that is there. -/
def step (now : Nat) (closeFirst : Bool) (b : Broker) (c : Connection) : Option Turn :=
  match c.phase with
  | .awaiting deadline => c.await now b deadline
  | .refusing rest cause => c.refuse b rest cause
  | .takingOver connect accepted owner =>
    if (b.lease owner).released then some (c.bind b connect accepted) else none
  | .greeting binding rest => c.greet now closeFirst b binding rest
  | .serving binding deadline writer => c.serve now closeFirst b binding deadline writer
  | .draining binding result writer =>
    if writer.phase = .stopped then some (c.conclude b binding result) else none
  | .ended _ => none

/-! ### Writing -/

/-- The writer at work, with what it works for. -/
def writer? (c : Connection) : Option (Binding × Writer) :=
  match c.phase with
  | .serving binding _ writer => some (binding, writer)
  | .draining binding _ writer => some (binding, writer)
  | _ => none

def setWriter (c : Connection) (writer : Writer) : Connection :=
  match c.phase with
  | .serving binding deadline _ => { c with phase := .serving binding deadline writer }
  | .draining binding result _ => { c with phase := .draining binding result writer }
  | _ => c

/-- Hands a writer's bytes to the client. -/
def transmit (p : Pipe) (turn : Writer.Turn) : Pipe :=
  let p := p.write turn.sent
  let p := if turn.flushed then p.flush else p
  if turn.ended then p.close else p

/-- What the connection's writer does next, or `none` while it has to wait. -/
def writeStep (now : Nat) (look : Writer.Look) (b : Broker) (c : Connection) : Option Turn := do
  let (binding, writer) ← c.writer?
  let env : Writer.Surroundings :=
    { now, room := c.outbound.room, reason := (b.lease binding.lease).reason, look }
  let turn ← writer.step env (b.session binding.session)
  let b := b.putSession binding.session turn.session
  let b := if turn.lost then b.closeLease binding.lease .connectionLost else b
  let c := { c with outbound := transmit c.outbound turn }
  return { broker := b, connection := c.setWriter turn.writer }

/-! ### Time -/

/-- When the connection or its writer stops waiting. -/
def deadlines (c : Connection) : List Nat :=
  match c.phase with
  | .awaiting deadline => [deadline]
  | .serving _ deadline writer => deadline.toList ++ writer.deadline?.toList
  | .draining _ _ writer => writer.deadline?.toList
  | _ => []

end Connection

end MqttBroker
