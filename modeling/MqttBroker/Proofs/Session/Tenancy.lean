import MqttBroker.Proofs.Writer.Traffic
/-!
A session over its life. Connections use it one after the other and never two at once; meanwhile
messages are offered to it, packets of the client are handled, and the connection's writer works. A
move is what one task does between two points where it waits, or a part of that.
-/

namespace MqttBroker

/-- The connection that uses a session. It has a writer once its client has the CONNACK. -/
structure Tenant where
  link : Link
  /-- Why the connection has been asked to close, if it has. -/
  reason : Option CloseReason := none
  writer : Option Writer := none
deriving DecidableEq

structure Tenancy where
  session : Session
  tenant : Option Tenant := none
deriving DecidableEq

/-- What the settings and the client can agree on: a window with room for a message, and with more
identifiers than places. -/
def Link.IsServable (l : Link) : Prop := 1 ≤ l.inFlightLimit ∧ l.inFlightLimit ≤ 65535

instance (l : Link) : Decidable l.IsServable := inferInstanceAs (Decidable (_ ∧ _))

namespace Tenant

/-- Only the first reason is kept. -/
def close (x : Tenant) (reason : CloseReason) : Tenant :=
  { x with reason := x.reason.or (some reason) }

/-- With the writer as a step leaves it; a failed writer closes the connection. -/
def after (x : Tenant) (turn : Writer.Turn) : Tenant :=
  let x' := { x with writer := some turn.writer }
  if turn.lost then x'.close .connectionLost else x'

@[simp] theorem close_writer (x : Tenant) (reason : CloseReason) :
    (x.close reason).writer = x.writer := rfl

@[simp] theorem close_link (x : Tenant) (reason : CloseReason) :
    (x.close reason).link = x.link := rfl

@[simp] theorem after_writer (x : Tenant) (turn : Writer.Turn) :
    (x.after turn).writer = some turn.writer := by
  unfold after
  split <;> rfl

@[simp] theorem after_link (x : Tenant) (turn : Writer.Turn) : (x.after turn).link = x.link := by
  unfold after
  split <;> rfl

end Tenant

namespace Tenancy

def fresh (clientId : String) (capacity : Nat) : Tenancy where
  session := Session.fresh clientId capacity

def writer? (t : Tenancy) : Option Writer := t.tenant.bind (·.writer)

/-- The message in the writer's hand, if there is one. -/
def hand (t : Tenancy) : List Publication := (t.writer?.map (·.phase.hand)).getD []

/-- What the writer has still to send again. -/
def left (t : Tenancy) : List Redelivery := (t.writer?.map (·.phase.left)).getD []

theorem writer?_of_tenant {t : Tenancy} {x : Tenant} (hx : t.tenant = some x) :
    t.writer? = x.writer := by
  rw [writer?, hx]
  rfl

theorem writer?_congr {t t' : Tenancy} {x x' : Tenant} (hx : t.tenant = some x)
    (hx' : t'.tenant = some x') (hwriter : x'.writer = x.writer) : t'.writer? = t.writer? := by
  rw [writer?_of_tenant hx, writer?_of_tenant hx', hwriter]

theorem writer?_close (t : Tenancy) (reason : CloseReason) :
    writer? { t with tenant := t.tenant.map (·.close reason) } = t.writer? := by
  unfold writer?
  cases t.tenant <;> rfl

theorem hand_congr {t t' : Tenancy} (h : t'.writer? = t.writer?) : t'.hand = t.hand := by
  rw [hand, h, hand]

theorem left_congr {t t' : Tenancy} (h : t'.writer? = t.writer?) : t'.left = t.left := by
  rw [left, h, left]

/-- Whoever lets go of a session has nothing of it in hand. -/
theorem hand_of_stopped {t : Tenancy} {x : Tenant} (hx : t.tenant = some x)
    (hstopped : ∀ w, x.writer = some w → w.phase = .stopped) : t.hand = [] := by
  rw [hand, writer?_of_tenant hx]
  cases hw : x.writer with
  | none => rfl
  | some w =>
    rw [Option.map_some, hstopped w hw]
    rfl

inductive Move where
  /-- A connection binds to the session. -/
  | arrive (link : Link)
  /-- The CONNACK is out and the writer starts. -/
  | activate (threshold : Nat)
  | close (reason : CloseReason)
  /-- A dispatched message comes by. -/
  | offer (m : Message)
  /-- A control packet is queued for the client. -/
  | answer (p : Packet)
  /-- PUBACK. -/
  | ack (id : UInt16)
  /-- PUBREC, and the PUBREL that goes with it. -/
  | receive (id : UInt16)
  /-- PUBREC with a refusal. -/
  | abandon (id : UInt16)
  /-- PUBCOMP. -/
  | complete (id : UInt16)
  /-- What changes apart from the outbox and the window. -/
  | adjust (subscriptions : Subscriptions) (incoming : List UInt16) (will : Option Message)
    (active : Bool) (owner : Option LeaseId)
  | write (now : Nat) (room : Option Nat) (look : Writer.Look)
  /-- The connection lets go of the session, which is kept for another one or not. -/
  | leave (kept : Bool)

/-- Queues a control packet; an outbox that is full closes the connection. -/
def answer (t : Tenancy) (x : Tenant) (p : Packet) : Tenancy :=
  match p.encode x.link.level with
  | .error _ => { t with tenant := some (x.close .protocolError) }
  | .ok bytes => match t.session.enqueue? (.control bytes) with
    | some session => { session, tenant := some x }
    | none => { t with tenant := some (x.close .queueOverflow) }

def receive (t : Tenancy) (x : Tenant) (id : UInt16) : Tenancy :=
  match t.session.received id with
  | (session, true) => answer { t with session } x (.pubRel { packetId := id })
  | (_, false) => t

theorem answer_cases (t : Tenancy) (x : Tenant) (p : Packet) :
    (∃ reason, t.answer x p = { t with tenant := some (x.close reason) }) ∨
      ∃ bytes, p.encode x.link.level = .ok bytes ∧
        t.answer x p = { session := t.session.append (.control bytes), tenant := some x } := by
  unfold answer
  split
  · exact .inl ⟨_, rfl⟩
  · next bytes hbytes =>
    split
    · next hsome =>
      rw [Session.enqueue?_eq_some hsome]
      exact .inr ⟨bytes, hbytes, rfl⟩
    · exact .inl ⟨_, rfl⟩

theorem receive_cases (t : Tenancy) (x : Tenant) (id : UInt16) :
    (t.session.window.received? id = none ∧ t.receive x id = t) ∨
      ∃ window, t.session.window.received? id = some window ∧
        t.receive x id = answer { t with session := { t.session with window } } x
          (.pubRel { packetId := id }) := by
  unfold receive
  rcases t.session.received_cases id with ⟨hnone, heq⟩ | ⟨window, hsome, heq⟩
  · rw [heq]
    exact .inl ⟨hnone, rfl⟩
  · rw [heq]
    exact .inr ⟨window, hsome, rfl⟩

/-- Handling a packet leaves the writer where it is and only adds to the outbox. -/
theorem answer_appends (t : Tenancy) {x : Tenant} (hx : t.tenant = some x) (p : Packet) :
    (t.answer x p).tenant.map (·.writer) = t.tenant.map (·.writer) ∧
      t.session.outbox.items <+: (t.answer x p).session.outbox.items := by
  rw [hx]
  rcases t.answer_cases x p with ⟨reason, heq⟩ | ⟨bytes, -, heq⟩
  · rw [heq]
    exact ⟨rfl, List.prefix_refl _⟩
  · rw [heq]
    exact ⟨rfl, List.prefix_append _ _⟩

theorem receive_appends (t : Tenancy) {x : Tenant} (hx : t.tenant = some x) (id : UInt16) :
    (t.receive x id).tenant.map (·.writer) = t.tenant.map (·.writer) ∧
      t.session.outbox.items <+: (t.receive x id).session.outbox.items := by
  rcases t.receive_cases x id with ⟨-, heq⟩ | ⟨window, -, heq⟩
  · rw [heq]
    exact ⟨rfl, List.prefix_refl _⟩
  · rw [heq]
    exact answer_appends { t with session := { t.session with window } } hx _

/-- The outcome of a move, or `none` where it cannot be made. -/
def step (t : Tenancy) : Move → Option Tenancy
  | .arrive link =>
    if t.tenant = none ∧ link.IsServable then some { t with tenant := some { link } } else none
  | .activate threshold => do
    let x ← t.tenant
    if x.writer = none then
      return { t with tenant := some { x with writer := some (Writer.start x.link threshold) } }
    else none
  | .close reason => some { t with tenant := t.tenant.map (·.close reason) }
  | .offer m => some { t with session := (t.session.offer m).1 }
  | .answer p => if p.kind = .publish then none else t.tenant.map fun x => t.answer x p
  | .ack id => some { t with session := (t.session.ack id).1 }
  | .receive id => t.tenant.map fun x => t.receive x id
  | .abandon id => some { t with session := (t.session.abandon id).1 }
  | .complete id => some { t with session := (t.session.complete id).1 }
  | .adjust subscriptions incoming will active owner =>
    some { t with session := { t.session with subscriptions, incoming, will, active, owner } }
  | .write now room look => do
    let x ← t.tenant
    let w ← x.writer
    (w.step { now, room, reason := x.reason, look } t.session).map fun turn =>
      { session := turn.session, tenant := some (x.after turn) }
  | .leave kept => do
    let x ← t.tenant
    if x.writer.all (·.phase = .stopped) then
      let outbox := if kept then t.session.outbox.discardTransient else t.session.outbox
      return { session := { t.session with outbox }, tenant := none }
    else none

/-- `step` read backwards: which moves there are, and what each needs and does. -/
inductive Goes (t : Tenancy) : Move → Tenancy → Prop where
  | arrive {link : Link} (hfree : t.tenant = none) (hlink : link.IsServable) :
    Goes t (.arrive link) { t with tenant := some { link } }
  | activate {threshold : Nat} {x : Tenant} (hx : t.tenant = some x) (hwriter : x.writer = none) :
    Goes t (.activate threshold)
      { t with tenant := some { x with writer := some (Writer.start x.link threshold) } }
  | close {reason : CloseReason} :
    Goes t (.close reason) { t with tenant := t.tenant.map (·.close reason) }
  | offer {m : Message} : Goes t (.offer m) { t with session := (t.session.offer m).1 }
  | answer {p : Packet} {x : Tenant} (hx : t.tenant = some x) (hkind : p.kind ≠ .publish) :
    Goes t (.answer p) (t.answer x p)
  | ack {id : UInt16} : Goes t (.ack id) { t with session := (t.session.ack id).1 }
  | receive {id : UInt16} {x : Tenant} (hx : t.tenant = some x) :
    Goes t (.receive id) (t.receive x id)
  | abandon {id : UInt16} : Goes t (.abandon id) { t with session := (t.session.abandon id).1 }
  | complete {id : UInt16} : Goes t (.complete id) { t with session := (t.session.complete id).1 }
  | adjust {subscriptions : Subscriptions} {incoming : List UInt16} {will : Option Message}
    {active : Bool} {owner : Option LeaseId} :
    Goes t (.adjust subscriptions incoming will active owner)
      { t with session := { t.session with subscriptions, incoming, will, active, owner } }
  | write {now : Nat} {room : Option Nat} {look : Writer.Look} {x : Tenant} {w : Writer}
    {turn : Writer.Turn} (hx : t.tenant = some x) (hwriter : x.writer = some w)
    (hacts : Writer.Acts { now, room, reason := x.reason, look } t.session w turn) :
    Goes t (.write now room look) { session := turn.session, tenant := some (x.after turn) }
  | leave {kept : Bool} {x : Tenant} (hx : t.tenant = some x)
    (hstopped : ∀ w, x.writer = some w → w.phase = .stopped) :
    Goes t (.leave kept)
      { session := { t.session with
          outbox := if kept then t.session.outbox.discardTransient else t.session.outbox }
        tenant := none }

theorem goes_of_step {t t' : Tenancy} {move : Move} (h : t.step move = some t') :
    Goes t move t' := by
  cases move with
  | arrive link =>
    simp only [step, Option.ite_none_right_eq_some, Option.some.injEq] at h
    obtain ⟨⟨hfree, hlink⟩, rfl⟩ := h
    exact .arrive hfree hlink
  | activate threshold =>
    obtain ⟨x, hx, h⟩ := Option.bind_eq_some_iff.1 h
    obtain ⟨hwriter, h⟩ := Option.ite_none_right_eq_some.1 h
    cases h
    exact .activate hx hwriter
  | close | offer | ack | abandon | complete | adjust =>
    cases h
    constructor
  | answer p =>
    obtain ⟨hkind, h⟩ := Option.ite_none_left_eq_some.1 h
    obtain ⟨x, hx, rfl⟩ := Option.map_eq_some_iff.1 h
    exact .answer hx hkind
  | receive id =>
    obtain ⟨x, hx, rfl⟩ := Option.map_eq_some_iff.1 h
    exact .receive hx
  | write =>
    obtain ⟨x, hx, h⟩ := Option.bind_eq_some_iff.1 h
    obtain ⟨w, hw, h⟩ := Option.bind_eq_some_iff.1 h
    obtain ⟨turn, hturn, rfl⟩ := Option.map_eq_some_iff.1 h
    exact .write hx hw (Writer.acts_of_step hturn)
  | leave kept =>
    obtain ⟨x, hx, h⟩ := Option.bind_eq_some_iff.1 h
    obtain ⟨hstopped, h⟩ := Option.ite_none_right_eq_some.1 h
    cases h
    refine .leave hx fun w hw => ?_
    rw [hw] at hstopped
    simpa using hstopped

section

variable {α : Type} (note : Tenancy → Move → Tenancy → α → α)

/-- Makes the moves one after the other; `note` keeps a record of them. -/
def run : List Move → Tenancy × α → Option (Tenancy × α)
  | [], x => some x
  | move :: moves, (t, a) => (t.step move).bind fun t' => run moves (t', note t move t' a)

theorem run_append (moves moves' : List Move) (x : Tenancy × α) :
    run note (moves ++ moves') x = (run note moves x).bind (run note moves') := by
  induction moves generalizing x with
  | nil => rfl
  | cons move moves ih =>
    obtain ⟨t, a⟩ := x
    rw [List.cons_append, run, run]
    cases t.step move with
    | none => rfl
    | some t' => exact ih _

variable {note}

/-- What holds at the start and is kept by every move holds after every run. -/
theorem run_induction {I : Tenancy × α → Prop}
    (hstep : ∀ t move t' a, t.step move = some t' → I (t, a) → I (t', note t move t' a))
    {moves : List Move} {x y : Tenancy × α} (hrun : run note moves x = some y) (hx : I x) :
    I y := by
  induction moves generalizing x with
  | nil =>
    cases hrun
    exact hx
  | cons move moves ih =>
    obtain ⟨t', ht', hrun⟩ := Option.bind_eq_some_iff.1 hrun
    exact ih hrun (hstep _ _ _ _ ht' hx)

/-- A record that is a part of another one is kept in the same runs. -/
theorem run_map {β : Type} {note' : Tenancy → Move → Tenancy → β → β} (f : α → β)
    (hnote : ∀ t move t' a, f (note t move t' a) = note' t move t' (f a)) {moves : List Move}
    {t t' : Tenancy} {a a' : α} (hrun : run note moves (t, a) = some (t', a')) :
    run note' moves (t, f a) = some (t', f a') := by
  induction moves generalizing t a with
  | nil =>
    cases hrun
    rfl
  | cons move moves ih =>
    obtain ⟨t₁, ht₁, hrun⟩ := Option.bind_eq_some_iff.1 hrun
    have hrest := ih hrun
    rw [hnote] at hrest
    exact Option.bind_eq_some_iff.2 ⟨t₁, ht₁, hrest⟩

end

/-- Whether a run goes on does not depend on the record. -/
theorem run_of_run {α β : Type} {note : Tenancy → Move → Tenancy → α → α}
    (note' : Tenancy → Move → Tenancy → β → β) {moves : List Move} {t t' : Tenancy} {a a' : α}
    (hrun : run note moves (t, a) = some (t', a')) (c : β) :
    ∃ c', run note' moves (t, c) = some (t', c') := by
  induction moves generalizing t a c with
  | nil =>
    cases hrun
    exact ⟨c, rfl⟩
  | cons move moves ih =>
    obtain ⟨t₁, ht₁, hrun⟩ := Option.bind_eq_some_iff.1 hrun
    obtain ⟨c', hrest⟩ := ih hrun (note' t move t₁ c)
    exact ⟨c', Option.bind_eq_some_iff.2 ⟨t₁, ht₁, hrest⟩⟩

/-- Some moves lead from `t` to `t'`. -/
def Reaches (t t' : Tenancy) : Prop :=
  ∃ moves, run (fun _ _ _ (_ : Unit) => ()) moves (t, ()) = some (t', ())

theorem Reaches.induction {I : Tenancy → Prop}
    (hgoes : ∀ t move t', Goes t move t' → I t → I t') {t t' : Tenancy}
    (h : Reaches t t') (ht : I t) : I t' := by
  obtain ⟨moves, hrun⟩ := h
  exact run_induction (I := fun x => I x.1)
    (fun t move t' _ hstep => hgoes t move t' (goes_of_step hstep)) hrun ht

/-- A request to close, an answer to the client and a change apart from the outbox and the window
come along with something else. Every other move is a deed. -/
def Move.isDeed : Move → Bool
  | .close _ | .answer _ | .adjust .. => false
  | .arrive _ | .activate _ | .offer _ | .ack _ | .receive _ | .abandon _ | .complete _ | .write ..
  | .leave _ => true

/-- Some moves lead from `t` to `t'`, and the deeds among them are these. -/
def Does (t : Tenancy) (deeds : List Move) (t' : Tenancy) : Prop :=
  ∃ moves, moves.filter Move.isDeed = deeds ∧
    run (fun _ _ _ (_ : Unit) => ()) moves (t, ()) = some (t', ())

namespace Does

variable {t t' t'' : Tenancy} {deeds deeds' : List Move}

theorem refl (t : Tenancy) : Does t [] t := ⟨[], rfl, rfl⟩

theorem trans (h : Does t deeds t') (h' : Does t' deeds' t'') : Does t (deeds ++ deeds') t'' := by
  obtain ⟨moves, rfl, hmoves⟩ := h
  obtain ⟨moves', rfl, hmoves'⟩ := h'
  refine ⟨moves ++ moves', List.filter_append .., ?_⟩
  rw [run_append, hmoves]
  exact hmoves'

theorem of_step (move : Move) (h : t.step move = some t') :
    Does t ([move].filter Move.isDeed) t' := ⟨[move], rfl, by rw [run, h]; rfl⟩

theorem reaches (h : Does t deeds t') : Reaches t t' := by
  obtain ⟨moves, -, hmoves⟩ := h
  exact ⟨moves, hmoves⟩

end Does

/-- A history leads from `t` to `t'`: each of its entries has some deeds and what they leave. -/
inductive Lives : Tenancy → List (List Move × Tenancy) → Tenancy → Prop
  | nil (t : Tenancy) : Lives t [] t
  | cons {t t₁ t' : Tenancy} {deeds : List Move} {history : List (List Move × Tenancy)}
    (hdoes : Does t deeds t₁) (hlives : Lives t₁ history t') :
    Lives t ((deeds, t₁) :: history) t'

theorem Lives.does {t t' : Tenancy} {history : List (List Move × Tenancy)}
    (h : Lives t history t') : Does t (history.flatMap Prod.fst) t' := by
  induction h with
  | nil t => exact .refl t
  | cons hdoes _ ih => exact hdoes.trans ih

/-- A client that takes one message at a time. -/
def narrowLink : Link where
  level := .v311
  clientId := "a"
  keepAlive := none
  inFlightLimit := 1
  maxReceive := 1
  maxOutboundPacket := none
  sessionExpiry := 0
  persistent := true

/-- A message of one byte on the topic "a". -/
def letter (payload : UInt8) (qos : QoS) : Message where
  topic := [97]
  payload := [payload]
  qos := qos

/-- Subscribes to the topic "a". -/
def subscribing (qos : QoS) : Move := .adjust ⟨[([97], qos)]⟩ [] none false none

/-- Steps of a writer whose client reads. -/
def writing (n : Nat) : List Move := List.replicate n (.write 0 (some 64) .itemFirst)

end Tenancy

end MqttBroker
