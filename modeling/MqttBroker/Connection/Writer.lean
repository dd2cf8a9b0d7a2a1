import MqttBroker.Connection.Link
import MqttBroker.Connection.Output
/-!
The task that writes to a connected client: what an earlier connection left unacknowledged first,
then the outbox in order. It flushes when enough bytes are pending or the outbox is empty, waits for
a slot of the in-flight window before it sends above QoS 0, and says goodbye when the connection is
asked to close. Between two steps any other task may run.
-/

namespace MqttBroker

namespace Writer

inductive Phase where
  /-- About to look up what has to be sent again. -/
  | starting
  | redelivering (left : List Redelivery)
  /-- Writing a packet of `size` bytes; `left` is what has to be sent again after it, if that is
  what the writer is at. -/
  | writing (rest : Bytes) (size : Nat) (left : Option (List Redelivery))
  | flushing
  /-- At the outbox; parked when it was found empty. -/
  | taking (parked : Bool)
  /-- Holding a message until the in-flight window has a slot; parked when there was none. -/
  | reserving (p : Publication) (parked : Bool)
  /-- Writing the last packet and what is buffered, until the deadline. -/
  | closing (rest : Bytes) (deadline : Nat)
  | stopped
deriving DecidableEq

end Writer

structure Writer where
  link : Link
  /-- Pending bytes that force a flush. -/
  threshold : Nat
  output : Output
  unflushed : Nat := 0
  phase : Writer.Phase := .starting
deriving DecidableEq

namespace Writer

/-- Milliseconds for the last packet once the connection is closing. -/
def closeGrace : Nat := 1000

def start (link : Link) (threshold : Nat) : Writer where
  link := link
  threshold := threshold
  output := { capacity := max threshold 1024 }

/-- Where the writer comes upon a request to close that is there along with something else. -/
inductive Look where
  /-- Behind the something else. -/
  | itemFirst
  /-- Before it. -/
  | closeFirst
  /-- Only outside the wait it is in. Two looks are made for the request, in the wait and then
  around everything the writer does, and another task can make it between the two. -/
  | closeLate
deriving DecidableEq

/-- What a step of the writer depends on besides its session. -/
structure Surroundings where
  now : Nat
  /-- How many bytes the transport takes; `none` when it takes no more ever. -/
  room : Option Nat
  /-- Why the connection has been asked to close, if it has. -/
  reason : Option CloseReason
  look : Look := .itemFirst

/-- What a step leaves behind. -/
structure Turn where
  writer : Writer
  session : Session
  /-- The bytes the transport took. -/
  sent : Bytes := []
  flushed : Bool := false
  /-- The stream was ended. -/
  ended : Bool := false
  /-- Writing failed. -/
  lost : Bool := false

def enter (w : Writer) (s : Session) (phase : Phase) : Turn :=
  { writer := { w with phase }, session := s }

def fail (w : Writer) (s : Session) : Turn := { w.enter s .stopped with lost := true }

/-- Flush now or look for the next item first? -/
def settle (w : Writer) (s : Session) : Phase :=
  if w.threshold ≤ w.unflushed || s.outbox.isEmpty then .flushing else .taking false

/-- Starts writing a packet. -/
def put (w : Writer) (s : Session) (p : Packet) (left : Option (List Redelivery)) : Turn :=
  match p.encode w.link.level with
  | .ok bytes => w.enter s (.writing bytes bytes.length left)
  | .error _ => w.fail s

/-- Is the message larger than the client takes? Any identifier has the same size. -/
def exceedsClientLimit (w : Writer) (p : Publication) : Bool :=
  match w.link.maxOutboundPacket with
  | none => false
  | some most =>
    let id := if p.qos = .atMostOnce then none else some 1
    most < Packet.encodedLength (.publish (p.toPublish id)) w.link.level

/-- The closing DISCONNECT, which only 5.0 has and only some reasons call for. -/
def farewell (w : Writer) (reason : Option CloseReason) : Bytes :=
  match w.link.level.isV5, reason.bind CloseReason.disconnectCode? with
  | true, some code => (Packet.encode (.disconnect { code }) w.link.level).toOption.getD []
  | _, _ => []

def close (env : Surroundings) (w : Writer) (s : Session) : Turn :=
  w.enter s (.closing (w.farewell env.reason) (env.now + closeGrace))

/-- The transport takes nothing now: wait, or give up if the connection is closing. -/
def blocked (env : Surroundings) (w : Writer) (s : Session) : Option Turn :=
  if env.reason.isSome then some (w.close env s) else none

/-- Goes on with a packet. -/
def write (env : Surroundings) (w : Writer) (s : Session) (rest : Bytes) (size : Nat)
    (left : Option (List Redelivery)) : Option Turn :=
  let go (room : Nat) : Turn :=
    let (output, rest', sent) := w.output.accept rest room
    let w := { w with output }
    if rest'.isEmpty then
      let w := { w with unflushed := w.unflushed + size }
      let phase := match left with
        | some left => .redelivering left
        | none => w.settle s
      { w.enter s phase with sent }
    else { w.enter s (.writing rest' size left) with sent }
  if w.output.needsRoom rest then
    match env.room with
    | none => some (w.fail s)
    | some 0 => w.blocked env s
    | some room => some (go room)
  else some (go 0)

def flush (env : Surroundings) (w : Writer) (s : Session) : Option Turn :=
  if w.output.pending.isEmpty then
    some { ({ w with unflushed := 0 }).enter s (.taking false) with flushed := true }
  else match env.room with
    | none => some (w.fail s)
    | some 0 => w.blocked env s
    | some room =>
      let (output, sent) := w.output.drain room
      some { ({ w with output }).enter s .flushing with sent }

/-- Starts on an item of the outbox. -/
def begin (w : Writer) (s : Session) : Outgoing → Turn
  | .control bytes => w.enter s (.writing bytes bytes.length none)
  | .publish p =>
    if w.exceedsClientLimit p then w.enter s (w.settle s)
    else if p.qos = .atMostOnce then w.put s (.publish (p.toPublish none)) none
    else w.enter s (.reserving p false)

/-- Takes the next item. A parked writer looks again only when it is woken. -/
def next (env : Surroundings) (w : Writer) (s : Session) (parked : Bool) : Option Turn :=
  let awaken (otherwise : Option Turn) : Option Turn :=
    match s.outbox.awaken? with
    | some outbox => some (w.enter { s with outbox } (.taking false))
    | none => if env.reason.isSome then some (w.close env s) else otherwise
  if env.reason.isSome && env.look = .closeFirst then some (w.close env s)
  else if parked then awaken none
  else match s.outbox.next? with
    | some (item, outbox) => some (w.begin { s with outbox } item)
    | none => awaken (some (w.enter s (.taking true)))

/-- Waits for a slot. A message still held when the connection closes goes back to the head of the
outbox; but if the request to close is seen only outside this wait, the wait ends with the message
still in it, and the message is lost. -/
def reserve (env : Surroundings) (w : Writer) (s : Session) (p : Publication) (parked : Bool) :
    Option Turn :=
  let giveBack : Turn := w.close env { s with outbox := s.outbox.requeue (.publish p) }
  let awaken (otherwise : Option Turn) : Option Turn :=
    match s.awaken? with
    | some s => some (w.enter s (.reserving p false))
    | none => if env.reason.isSome then some giveBack else otherwise
  if env.reason.isSome && env.look = .closeFirst then some giveBack
  else if env.reason.isSome && env.look = .closeLate && parked then some (w.close env s)
  else if parked then awaken none
  else match s.reserve? w.link.inFlightLimit p with
    | some (s, id) => some (w.put s (.publish (p.toPublish (some id))) none)
    | none => awaken (some (w.enter s (.reserving p true)))

/-- Goes on with the farewell. A client that does not read holds it up until the deadline. -/
def finish (env : Surroundings) (w : Writer) (s : Session) (rest : Bytes) (deadline : Nat) :
    Option Turn :=
  if rest.isEmpty && w.output.pending.isEmpty then
    some { w.enter s .stopped with flushed := true, ended := true }
  else if !rest.isEmpty && !w.output.needsRoom rest then
    let (output, rest, sent) := w.output.accept rest 0
    some { ({ w with output }).enter s (.closing rest deadline) with sent }
  else match env.room with
    | none => some (w.enter s .stopped)
    | some 0 => if deadline ≤ env.now then some (w.enter s .stopped) else none
    | some room =>
      if rest.isEmpty then
        let (output, sent) := w.output.drain room
        some { ({ w with output }).enter s (.closing rest deadline) with sent }
      else
        let (output, rest, sent) := w.output.accept rest room
        some { ({ w with output }).enter s (.closing rest deadline) with sent }

/-- What the writer does next, or `none` while it has to wait. -/
def step (env : Surroundings) (s : Session) (w : Writer) : Option Turn :=
  match w.phase with
  | .starting => some (w.enter s (.redelivering s.window.redelivery))
  | .redelivering [] => some (w.enter s .flushing)
  | .redelivering (.publish id p :: left) =>
    some (w.put s (.publish (p.toPublish (some id))) (some left))
  | .redelivering (.release id :: left) => some (w.put s (.pubRel { packetId := id }) (some left))
  | .writing rest size left => w.write env s rest size left
  | .flushing => w.flush env s
  | .taking parked => w.next env s parked
  | .reserving p parked => w.reserve env s p parked
  | .closing rest deadline => w.finish env s rest deadline
  | .stopped => none

/-- When a writer that is closing gives up. -/
def deadline? (w : Writer) : Option Nat :=
  match w.phase with
  | .closing _ deadline => some deadline
  | _ => none

end Writer

end MqttBroker
