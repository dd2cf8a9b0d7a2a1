import MqttBroker.Proofs.Broker.Updates
import MqttBroker.Proofs.Network.Acts
/-!
What stays with a broker: the limits and the check of credentials it was started with, by which it
decides on CONNECTs, and the leases it has made. Only a connection that is bound makes one.
-/

namespace MqttBroker

namespace Broker

/-- What CONNECTs are decided by. -/
def policy (b : Broker) : Limits × Option Authenticator := (b.limits, b.credentials)

/-- What CONNECTs are decided by, and how many leases there are. -/
def fixtures (b : Broker) : (Limits × Option Authenticator) × Nat := (b.policy, b.leases.length)

/-- From `b` to `b'` connections may have been bound. -/
structure Lasts (b b' : Broker) : Prop where
  policy : b'.policy = b.policy
  leases : b.leases.length ≤ b'.leases.length

variable {b b' : Broker}

theorem Lasts.of_fixtures (h : b'.fixtures = b.fixtures) : Lasts b b' :=
  ⟨congrArg Prod.fst h, Nat.le_of_eq (congrArg Prod.snd h).symm⟩

@[simp] theorem fixtures_updateSession (b : Broker) (id : SessionId) (f : Session → Session) :
    (b.updateSession id f).fixtures = b.fixtures := rfl

@[simp] theorem fixtures_putSession (b : Broker) (id : SessionId) (s : Session) :
    (b.putSession id s).fixtures = b.fixtures := rfl

@[simp] theorem fixtures_updateLease (b : Broker) (l : LeaseId) (f : Lease → Lease) :
    (b.updateLease l f).fixtures = b.fixtures :=
  congrArg (Prod.mk b.policy) (length_updateLease b l f)

@[simp] theorem fixtures_closeLease (b : Broker) (l : LeaseId) (reason : CloseReason) :
    (b.closeLease l reason).fixtures = b.fixtures := fixtures_updateLease ..

@[simp] theorem fixtures_releaseLease (b : Broker) (l : LeaseId) :
    (b.releaseLease l).fixtures = b.fixtures := fixtures_updateLease ..

@[simp] theorem fixtures_newLease (b : Broker) :
    b.newLease.1.fixtures = (b.fixtures.1, b.fixtures.2 + 1) :=
  congrArg (Prod.mk b.policy) List.length_append

@[simp] theorem fixtures_attach (b : Broker) (id : SessionId) (l : LeaseId) :
    (b.attach id l).1.fixtures = b.fixtures := rfl

@[simp] theorem fixtures_detach (b : Broker) (id : SessionId) (l : LeaseId) :
    (b.detach id l).1.fixtures = b.fixtures := by
  unfold detach
  split <;> rfl

@[simp] theorem fixtures_closeOwner (b : Broker) (id : SessionId) (reason : CloseReason) :
    (b.closeOwner id reason).fixtures = b.fixtures := by
  unfold closeOwner
  split
  · exact fixtures_closeLease ..
  · rfl

@[simp] theorem fixtures_unregister (b : Broker) (id : SessionId) :
    (b.unregister id).fixtures = b.fixtures := by
  unfold unregister
  split <;> rfl

@[simp] theorem fixtures_openSession (b : Broker) (clientId : String) (clean : Bool) :
    (b.openSession clientId clean).1.fixtures = b.fixtures := by
  rcases b.openSession_cases clientId clean with ⟨old, -, heq⟩ | heq <;> rw [heq]
  rfl

theorem fixtures_of_asks (h : b.Asks b') : b'.fixtures = b.fixtures := by
  induction h with
  | rest | assign => rfl
  | close h l reason ih => exact (fixtures_closeLease ..).trans ih

@[simp] theorem fixtures_deliver (b : Broker) (id : SessionId) (m : Message) :
    (b.deliver id m).1.fixtures = b.fixtures := by
  unfold deliver
  split
  · rfl
  · rfl
  · dsimp only
    split
    · exact fixtures_closeOwner ..
    · rfl

@[simp] theorem fixtures_dispatch (b : Broker) (m : Message) :
    (b.dispatch m).1.fixtures = b.fixtures := by
  unfold dispatch
  refine List.foldlRecOn (motive := fun x : Broker × Nat => x.1.fixtures = b.fixtures) _ _ rfl ?_
  exact fun x h entry _ => (fixtures_deliver x.1 entry.2 m).trans h

@[simp] theorem fixtures_shutdown (b : Broker) : b.shutdown.fixtures = b.fixtures := by
  unfold shutdown
  refine List.foldlRecOn (motive := fun b' : Broker => b'.fixtures = b.fixtures) _ _ rfl ?_
  exact fun b' h entry _ => (fixtures_closeOwner b' entry.2 _).trans h

end Broker

/-! ### Handling -/

namespace Handled

/-- What stays while a packet is handled, but for a DISCONNECT that changes the session expiry. -/
def standing (h : Handled) : ((Limits × Option Authenticator) × Nat) × Binding :=
  (h.broker.fixtures, h.binding)

@[simp] theorem standing_fail (h : Handled) (error : SessionError) :
    (h.fail error).standing = h.standing := rfl

@[simp] theorem standing_putSession (h : Handled) (s : Session) :
    (h.putSession s).standing = h.standing := rfl

@[simp] theorem standing_tell (h : Handled) (event : Event) :
    (h.tell event).standing = h.standing := rfl

@[simp] theorem standing_send (h : Handled) (p : Packet) : (h.send p).standing = h.standing := by
  unfold send
  split
  · rfl
  · split <;> rfl

@[simp] theorem standing_publish (h : Handled) (m : Message) :
    (h.publish m).1.standing = h.standing :=
  congrArg (·, h.binding) (Broker.fixtures_dispatch h.broker m)

@[simp] theorem standing_sendUnknown (h : Handled) (id : UInt16) (answer : Ack → Packet) :
    (h.sendUnknown id answer).standing = h.standing := by
  unfold sendUnknown
  split
  · exact standing_send ..
  · rfl

theorem standing_onPublish (h : Handled) (p : Publish) :
    (h.onPublish p).standing = h.standing := by
  unfold onPublish
  split
  · rfl
  dsimp only
  split
  · simp
  · simp
  · split
    · simp
    · split <;> simp
  · rfl

theorem standing_onPubRec (h : Handled) (a : Ack) : (h.onPubRec a).standing = h.standing := by
  unfold onPubRec
  split
  · rfl
  · split <;> simp

theorem standing_onPubRel (h : Handled) (id : UInt16) :
    (h.onPubRel id).standing = h.standing := by
  unfold onPubRel
  split <;> simp

end Handled

/-- The session expiry that a DISCONNECT asks for. -/
def Packet.expiry? (v5 : Bool) : Packet → Option UInt32
  | disconnect tail => if v5 then Properties.sessionExpiryInterval? tail.properties else none
  | _ => none

/-- The binding once a session expiry has been settled, if one has. -/
def Binding.settle (β : Binding) : Option UInt32 → Binding
  | some expiry => { β with link := { β.link with persistent := 0 < expiry } }
  | none => β

namespace Handled

/-- From `h` to `h'` the packet is handled, and changes the binding at most by settling a session
expiry. -/
structure Settles (h : Handled) (p : Packet) (h' : Handled) : Prop where
  fixtures : h'.broker.fixtures = h.broker.fixtures
  done : h'.verdict = .done → h'.binding = h.binding.settle (p.expiry? h.v5)
  going : h'.verdict ≠ .done → h'.binding = h.binding

variable {h h' : Handled} {p : Packet}

theorem Settles.of_standing (hnone : p.expiry? h.v5 = none) (hsame : h'.standing = h.standing) :
    h.Settles p h' := by
  obtain ⟨hfixtures, hbinding⟩ := Prod.mk.inj hsame
  refine ⟨hfixtures, fun _ => ?_, fun _ => hbinding⟩
  rw [hnone, hbinding]
  rfl

theorem settles_onDisconnect (h : Handled) (tail : ReasonTail) :
    h.Settles (.disconnect tail) (h.onDisconnect tail) := by
  have hwill : (if !h.v5 || tail.code = ReasonCode.normalDisconnection then
      h.putSession h.session.takeWill.1 else h).standing = h.standing := by
    split <;> rfl
  unfold onDisconnect
  generalize (if !h.v5 || tail.code = ReasonCode.normalDisconnection then
      h.putSession h.session.takeWill.1 else h) = h₁ at hwill ⊢
  obtain ⟨hfixtures, hbinding⟩ := Prod.mk.inj hwill
  have hv5 : h₁.v5 = h.v5 := by rw [v5, hbinding, v5]
  have hleave := (Broker.fixtures_closeLease h₁.broker h₁.binding.lease .clientDisconnect).trans
    hfixtures
  dsimp only
  split
  · next hnone =>
    refine ⟨hleave, fun _ => ?_, fun hne => absurd rfl hne⟩
    rw [Packet.expiry?, ← hv5, hnone, ← hbinding]
    rfl
  · next expiry hsome =>
    split
    · exact ⟨hfixtures, nofun, fun _ => hbinding⟩
    · refine ⟨hleave, fun _ => ?_, fun hne => absurd rfl hne⟩
      rw [Packet.expiry?, ← hv5, hsome, ← hbinding]
      rfl

/-- Only a DISCONNECT that is accepted changes the binding. -/
theorem settles_onPacket (h : Handled) (p : Packet) : h.Settles p (h.onPacket p) := by
  cases p with
  | publish p => exact .of_standing rfl (standing_onPublish h p)
  | pubRec a => exact .of_standing rfl (standing_onPubRec h a)
  | pubRel a => exact .of_standing rfl (standing_onPubRel h a.packetId)
  | disconnect tail => exact settles_onDisconnect h tail
  | subscribe p => exact .of_standing rfl (standing_send ..)
  | unsubscribe p => exact .of_standing rfl (standing_send ..)
  | pingReq => exact .of_standing rfl (standing_send ..)
  | pubAck | pubComp | connect | auth | connAck | subAck | unsubAck | pingResp =>
    exact .of_standing rfl rfl

end Handled

/-! ### Connections -/

namespace Connection

open Broker (Lasts)

variable {now : Nat} {closeFirst : Bool} {look : Writer.Look} {b : Broker} {c : Connection}
  {turn : Turn}

@[simp] theorem fixtures_recordError (b : Broker) (β : Binding) (result : Result) :
    (recordError b β result).fixtures = b.fixtures := by
  cases result with
  | ok => rfl
  | error => exact Broker.fixtures_closeLease ..

@[simp] theorem fixtures_release (b : Broker) (β : Binding) :
    (release b β).fixtures = b.fixtures := by
  unfold release
  dsimp only
  split <;> split <;> simp

theorem fixtures_bind (c : Connection) (b : Broker) (connect : Connect) (accepted : Accepted) :
    (c.bind b connect accepted).broker.fixtures = (b.fixtures.1, b.fixtures.2 + 1) := by
  unfold bind
  dsimp only
  split <;> split <;> simp [enter, conclude, close]

theorem fixtures_handle (now : Nat) (b : Broker) (c : Connection) (β : Binding) (w : Writer)
    (p : Packet) : (c.handle now b β w p).broker.fixtures = b.fixtures := by
  have hhandle : (b.handle β p).broker.fixtures = b.fixtures :=
    (Handled.settles_onPacket { broker := b, binding := β } p).fixtures
  unfold handle
  dsimp only
  split <;> simp [enter, drain, hhandle]

theorem lasts_of_step (h : c.step now closeFirst b = some turn) : Lasts b turn.broker := by
  cases acts_of_step h with
  | outside _ _ _ hasks => exact .of_fixtures (Broker.fixtures_of_asks hasks)
  | @bind b' c' connect accepted _ hasks =>
    have hbind := fixtures_bind c' b' connect accepted
    rw [Broker.fixtures_of_asks hasks] at hbind
    exact ⟨congrArg Prod.fst hbind, Nat.le_of_succ_le (Nat.le_of_eq (congrArg Prod.snd hbind).symm)⟩
  | greet | activate | read => exact .of_fixtures rfl
  | handle => exact .of_fixtures (fixtures_handle ..)
  | drain _ _ hasks =>
    exact .of_fixtures ((fixtures_recordError ..).trans (Broker.fixtures_of_asks hasks))
  | conclude => exact .of_fixtures ((fixtures_release ..).trans (fixtures_recordError ..))

theorem lasts_of_writeStep (h : c.writeStep now look b = some turn) :
    Lasts b turn.broker := by
  obtain ⟨β, w, turn', -, -, -, hasks⟩ := writes_of_writeStep h
  exact .of_fixtures ((Broker.fixtures_of_asks hasks).trans (Broker.fixtures_putSession ..))

end Connection

theorem Network.lasts_of_step {n n' : Network} {move : Network.Move}
    (hstep : n.step move = some n') : Broker.Lasts n.broker n'.broker := by
  cases move with
  | accept now capacity =>
    cases hstep
    exact .of_fixtures rfl
  | client i inbound outbound =>
    obtain ⟨c, -, rfl⟩ := Option.map_eq_some_iff.1 hstep
    exact .of_fixtures rfl
  | step i now closeFirst =>
    obtain ⟨c, -, hstep⟩ := Option.bind_eq_some_iff.1 hstep
    obtain ⟨turn, hturn, rfl⟩ := Option.map_eq_some_iff.1 hstep
    exact Connection.lasts_of_step hturn
  | write i now look =>
    obtain ⟨c, -, hstep⟩ := Option.bind_eq_some_iff.1 hstep
    obtain ⟨turn, hturn, rfl⟩ := Option.map_eq_some_iff.1 hstep
    exact Connection.lasts_of_writeStep hturn
  | publish m =>
    cases hstep
    exact .of_fixtures (Broker.fixtures_dispatch ..)
  | shutdown =>
    cases hstep
    exact .of_fixtures (Broker.fixtures_shutdown _)

end MqttBroker
