import MqttBroker.Broker.Admission
import MqttBroker.Broker.AssignedId
import MqttBroker.Session.Basic
/-!
The broker: every session it has made, the registry that says which of them a client id stands for,
and the handles of live connections. Sessions and leases are named by their place in the order of
creation, so that two sessions of one client id stay apart.
-/

namespace MqttBroker

structure Broker where
  limits : Limits := {}
  /-- Who decides on user names and passwords; without that every client is let in. -/
  credentials : Option Authenticator := none
  sessions : List Session := []
  /-- Client ids in use, each with its session. -/
  registry : List (String × SessionId) := []
  leases : List Lease := []
  /-- The UUIDs for the client ids that the broker makes up, in the order they are drawn. -/
  uuids : Nat → BitVec 128 := AssignedId.spread
  /-- Which of the UUIDs is the first. A random one is hard to guess. -/
  seed : Nat := 0
  /-- How many client ids the broker has made up. -/
  assigned : Nat := 0

namespace Broker

/-! ### Sessions and leases -/

def session? (b : Broker) (id : SessionId) : Option Session := b.sessions[id]?

/-- The session of that name; a blank one if there is none. -/
def session (b : Broker) (id : SessionId) : Session :=
  (b.session? id).getD (Session.fresh "" b.limits.outboxCapacity)

def updateSession (b : Broker) (id : SessionId) (f : Session → Session) : Broker :=
  { b with sessions := b.sessions.modify id f }

def putSession (b : Broker) (id : SessionId) (s : Session) : Broker := b.updateSession id fun _ => s

def lease (b : Broker) (id : LeaseId) : Lease := (b.leases[id]?).getD {}

def updateLease (b : Broker) (id : LeaseId) (f : Lease → Lease) : Broker :=
  { b with leases := b.leases.modify id f }

def newLease (b : Broker) : Broker × LeaseId :=
  ({ b with leases := b.leases ++ [{}] }, b.leases.length)

def closeLease (b : Broker) (id : LeaseId) (reason : CloseReason) : Broker :=
  b.updateLease id (·.close reason)

def releaseLease (b : Broker) (id : LeaseId) : Broker := b.updateLease id Lease.release

/-! ### The registry -/

def lookup (b : Broker) (clientId : String) : Option SessionId := b.registry.lookup clientId

/-- Lets the client id of `id` stand for `id`, in place of whatever it stood for. -/
def register (b : Broker) (id : SessionId) : Broker :=
  let clientId := (b.session id).clientId
  { b with registry := b.registry.filter (·.1 != clientId) ++ [(clientId, id)] }

/-- The state a new connection binds to, and whether it was there before. A clean start puts a fresh
state in the place of an old one. -/
def openSession (b : Broker) (clientId : String) (clean : Bool) : Broker × SessionId × Bool :=
  match if clean then none else b.lookup clientId with
  | some id => (b, id, true)
  | none =>
    let id := b.sessions.length
    let fresh := Session.fresh clientId b.limits.outboxCapacity
    let added := { b with sessions := b.sessions ++ [fresh] }
    (added.register id, id, false)

/-- Does the client id of `id` still stand for `id`? -/
def isRegistered (b : Broker) (id : SessionId) : Bool :=
  b.lookup (b.session id).clientId == some id

/-- Drops `id` from the registry unless its client id has come to stand for another session. -/
def unregister (b : Broker) (id : SessionId) : Broker :=
  if b.isRegistered id then
    { b with registry := b.registry.filter (·.1 != (b.session id).clientId) }
  else b

/-! ### Owners -/

/-- Makes the lease the owner of the session, and names the owner before it. -/
def attach (b : Broker) (id : SessionId) (lease : LeaseId) : Broker × Option LeaseId :=
  (b.updateSession id fun s => { s with owner := some lease }, (b.session id).owner)

/-- Clears the owner if it is still that lease. -/
def detach (b : Broker) (id : SessionId) (lease : LeaseId) : Broker × Bool :=
  if (b.session id).owner = some lease then
    (b.updateSession id fun s => { s with owner := none }, true)
  else (b, false)

def closeOwner (b : Broker) (id : SessionId) (reason : CloseReason) : Broker :=
  match (b.session id).owner with
  | some lease => b.closeLease lease reason
  | none => b

/-- Asks the connection that owns the client id's session to close, and names it. -/
def takeOver (b : Broker) (clientId : String) : Broker × Option LeaseId :=
  match b.lookup clientId with
  | none => (b, none)
  | some id => match (b.session id).owner with
    | none => (b, none)
    | some lease => (b.closeLease lease .takenOver, some lease)

/-! ### CONNECT -/

/-- The next client id that the broker makes up. -/
def madeClientId (b : Broker) : String := AssignedId.ofUuid (b.uuids (b.seed + b.assigned))

/-- Decides on a CONNECT. No session is touched. -/
def validate (b : Broker) (c : Connect) : Broker × Except Rejection Accepted :=
  let verdict := Admission.check b.limits b.credentials b.madeClientId c
  match verdict with
  | .ok { assigned := true, .. } => ({ b with assigned := b.assigned + 1 }, verdict)
  | _ => (b, verdict)

/-! ### Routing -/

/-- Offers a message to one session. Overflow closes a live connection. -/
def deliver (b : Broker) (id : SessionId) (m : Message) : Broker × Bool :=
  match (b.session id).offer m with
  | (_, .skipped) => (b, false)
  | (s, .queued) => (b.putSession id s, true)
  | (s, .full) => (if s.active then b.closeOwner id .queueOverflow else b, false)

/-- Offers a message to every registered session, and counts those that queued it. -/
def dispatch (b : Broker) (m : Message) : Broker × Nat :=
  b.registry.foldl
    (fun (b, count) (_, id) =>
      let (b', queued) := b.deliver id m
      (b', if queued then count + 1 else count))
    (b, 0)

/-- Asks every live connection to close. -/
def shutdown (b : Broker) : Broker :=
  b.registry.foldl (fun b (_, id) => b.closeOwner id .serverShutdown) b

end Broker

end MqttBroker
