import MqttBroker.Connection.Basic
/-!
A broker with its clients in memory: byte pipes between them, and a clock that only moves when told
to. After every operation the connections, their writers and the clients run until none of them can
do anything more.
-/

namespace MqttBroker

/-- A client's end of a connection, with the broker's end behind it. -/
structure Peer where
  name : String
  /-- The level the client writes its packets at. -/
  level : Level
  connection : Connection
  /-- Does the client read what it is sent? -/
  reading : Bool := true
  /-- Bytes the client is still writing. -/
  outgoing : Bytes := []
  /-- Bytes received and not yet reported. -/
  received : Bytes := []
  /-- The client has read to the end of the stream. -/
  sawEnd : Bool := false
  /-- The client has gone away. -/
  dropped : Bool := false
  toldEnd : Bool := false
  toldResult : Bool := false

namespace Peer

/-- The client reads what is there, or else writes what it can. -/
def step (p : Peer) : Option Peer :=
  let c := p.connection
  let write : Option Peer :=
    match p.outgoing, c.inbound.room with
    | [], _ | _, none | _, some 0 => none
    | bytes, some room =>
      some { p with
        outgoing := bytes.drop room
        connection := { c with inbound := c.inbound.write (bytes.take room) } }
  let read : Option Peer :=
    if p.dropped || !p.reading || p.sawEnd then none
    else if !c.outbound.held.isEmpty then
      let (chunk, outbound) := c.outbound.read
      some { p with received := p.received ++ chunk, connection := { c with outbound } }
    else if c.outbound.closed then some { p with sawEnd := true }
    else none
  read.or write

/-- The client writes no more. -/
def halfClose (p : Peer) : Peer :=
  { p with connection := { p.connection with inbound := p.connection.inbound.close } }

/-- The client goes away: the broker can read what was sent, and write no more. -/
def drop (p : Peer) : Peer :=
  { p with
    dropped := true
    connection :=
      { p.connection with
        inbound := p.connection.inbound.close
        outbound := p.connection.outbound.close } }

end Peer

structure Loopback where
  broker : Broker
  peers : List Peer := []
  /-- Milliseconds since the start. -/
  clock : Nat := 0
  events : List Event := []

namespace Loopback

/-- How a write of a client went. -/
inductive Sent where
  | sent
  /-- The client has gone, or knows that the broker has. -/
  | closed
  | broken
  /-- So many bytes found no room. -/
  | unsent (count : Nat)
deriving DecidableEq

/-- What has come to light since the last report. -/
structure News where
  received : List (String × Bytes) := []
  ends : List String := []
  results : List (String × Connection.Result) := []
  events : List Event := []

/-! ### Running -/

/-- Lets the first peer that can take a step. -/
def stepFirst (f : Peer → Option (Broker × Peer × List Event)) :
    List Peer → Option (Broker × List Peer × List Event)
  | [] => none
  | p :: others => match f p with
    | some (b, p', events) => some (b, p' :: others, events)
    | none => (stepFirst f others).map fun (b, others', events) => (b, p :: others', events)

def withTurn (p : Peer) (turn : Connection.Turn) : Broker × Peer × List Event :=
  (turn.broker, { p with connection := turn.connection }, turn.events)

/-- One step of the first task that can take one: connections before writers before clients. -/
def step (n : Loopback) : Option Loopback :=
  let connect (p : Peer) := (p.connection.step n.clock false n.broker).map (withTurn p)
  let write (p : Peer) := (p.connection.writeStep n.clock .itemFirst n.broker).map (withTurn p)
  let client (p : Peer) := p.step.map fun p' => (n.broker, p', [])
  let written := (stepFirst write n.peers).or (stepFirst client n.peers)
  let moved := (stepFirst connect n.peers).or written
  moved.map fun (broker, peers, events) => { n with broker, peers, events := n.events ++ events }

/-- Up to `rounds` steps. -/
def run : Nat → Loopback → Loopback
  | 0, n => n
  | rounds + 1, n => match n.step with
    | some n' => run rounds n'
    | none => n

/-- More steps than any exchange of messages takes. -/
def patience : Nat := 1000000000000

/-- Runs until nothing more can happen. -/
def settle (n : Loopback) : Loopback := n.run patience

/-! ### Operations -/

def find? (n : Loopback) (name : String) : Option Peer := n.peers.reverse.find? (·.name == name)

/-- Changes the latest peer of that name. -/
def update (n : Loopback) (name : String) (f : Peer → Peer) : Loopback :=
  let rec go : List Peer → List Peer
    | [] => []
    | p :: others => if p.name == name then f p :: others else p :: go others
  { n with peers := (go n.peers.reverse).reverse }

def connect (n : Loopback) (name : String) (level : Level) (capacity : Nat) (reading : Bool) :
    Loopback :=
  let n := n.update name Peer.drop
  let peer : Peer :=
    { name, level, reading, connection := Connection.accept n.broker.limits n.clock capacity }
  settle { n with peers := n.peers ++ [peer] }

def send (n : Loopback) (name : String) (bytes : Bytes) : Loopback × Sent :=
  match n.find? name with
  | none => (n, .closed)
  | some p =>
    if p.dropped || p.sawEnd then (n, .closed)
    else
      let n := settle (n.update name fun p => { p with outgoing := bytes })
      let left := ((n.find? name).map (·.outgoing)).getD []
      let room := (n.find? name).bind (·.connection.inbound.room)
      let outcome :=
        if left.isEmpty then .sent
        else if room.isNone then .broken
        else .unsent left.length
      (n.update name fun p => { p with outgoing := [] }, outcome)

def halfClose (n : Loopback) (name : String) : Loopback := settle (n.update name Peer.halfClose)

def drop (n : Loopback) (name : String) : Loopback := settle (n.update name Peer.drop)

def setReading (n : Loopback) (name : String) (reading : Bool) : Loopback :=
  settle (n.update name fun p => { p with reading })

def publish (n : Loopback) (m : Message) : Loopback × Nat :=
  let (broker, count) := n.broker.dispatch m
  (settle { n with broker }, count)

def shutdown (n : Loopback) : Loopback := settle { n with broker := n.broker.shutdown }

/-- The earliest time up to `target` at which someone stops waiting. -/
def nextDeadline (n : Loopback) (target : Nat) : Option Nat :=
  ((n.peers.flatMap (·.connection.deadlines)).filter fun d => n.clock < d && d ≤ target).min?

/-- Moves the clock to `target`; whoever stops waiting on the way does so in order of time. -/
def advanceTo (target : Nat) : Nat → Loopback → Loopback
  | 0, n => settle { n with clock := target }
  | rounds + 1, n => match n.nextDeadline target with
    | some deadline => advanceTo target rounds (settle { n with clock := deadline })
    | none => settle { n with clock := target }

/-- Moves the clock on. Every millisecond is a stop at most. -/
def advance (n : Loopback) (millis : Nat) : Loopback := advanceTo (n.clock + millis) (millis + 1) n

/-- What has happened since it was last asked. -/
def takeNews (n : Loopback) : News × Loopback :=
  let news : News :=
    { received := n.peers.filterMap fun p =>
        if p.received.isEmpty then none else some (p.name, p.received)
      ends := n.peers.filterMap fun p => if p.sawEnd && !p.toldEnd then some p.name else none
      results := n.peers.filterMap fun p => match p.connection.phase with
        | .ended result => if p.toldResult then none else some (p.name, result)
        | _ => none
      events := n.events }
  let told (p : Peer) : Peer :=
    { p with
      received := []
      toldEnd := p.sawEnd
      toldResult := match p.connection.phase with
        | .ended _ => true
        | _ => false }
  (news, { n with peers := n.peers.map told, events := [] })

end Loopback

end MqttBroker
