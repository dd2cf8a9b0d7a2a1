import MqttBroker.Proofs.Broker.Admitted
import MqttBroker.Proofs.Network.Basic
import MqttBroker.Proofs.Writer.Acts
/-!
What one step of a connection can do, said once: an inversion of `Connection.step` with one case for
each way a step goes, and one of `Connection.writeStep`. Invariants of networks are proved from them.
-/

namespace MqttBroker

namespace Broker

/-- From `b` to `b'` a client id may have been made up and connections may have been asked to
close, and that is all. -/
inductive Asks (b : Broker) : Broker → Prop where
  | rest : Asks b b
  | assign (assigned : Nat) : Asks b { b with assigned }
  | close {b' : Broker} (h : Asks b b') (l : LeaseId) (reason : CloseReason) :
    Asks b (b'.closeLease l reason)

theorem asks_validate (b : Broker) (connect : Connect) : Asks b (b.validate connect).1 := by
  unfold validate
  dsimp only
  split
  · exact .assign _
  · exact .rest

theorem isNamed_of_validate {b b' : Broker} {connect : Connect} {accepted : Accepted}
    (h : b.validate connect = (b', .ok accepted)) : accepted.IsNamed := by
  have hcheck : Admission.check b.limits b.credentials b.madeClientId connect = .ok accepted := by
    unfold validate at h
    dsimp only at h
    split at h
    · exact (Prod.mk.inj h).2
    · exact (Prod.mk.inj h).2
  exact Admission.isNamed_of_check hcheck

end Broker

namespace Connection

/-- The CONNECT that the connection is bound with if its next step binds it. -/
def connect? (c : Connection) : Option Connect :=
  match c.phase with
  | .awaiting _ => match c.receive with
    | .packet (.connect connect) _ => some connect
    | _ => none
  | .takingOver connect _ _ => some connect
  | _ => none

/-- The CONNECT that the connection is bound with once an earlier one has let go. -/
def taking? (c : Connection) : Option Connect :=
  match c.phase with
  | .takingOver connect _ _ => some connect
  | _ => none

/-- The packet that the connection's next step handles, and what it holds then. -/
def handles? (c : Connection) (closeFirst : Bool) (b : Broker) : Option (Binding × Packet) :=
  match c.phase with
  | .serving β _ _ =>
    if (b.lease β.lease).reason.isSome && closeFirst then none
    else match c.receive with
      | .packet p _ => some (β, p)
      | _ => none
  | _ => none

/-- Everything a step of a connection can do. -/
inductive Acts (now : Nat) (closeFirst : Bool) (b : Broker) (c : Connection) : Turn → Prop where
  /-- The connection goes on, or ends, before it is bound. -/
  | outside {turn : Turn} (hbefore : c.binding? = none) (hafter : turn.connection.binding? = none)
    (hwaiting : ∀ accepted ∈ turn.connection.waiting?,
      accepted.IsNamed ∨ c.waiting? = some accepted)
    (hasks : b.Asks turn.broker)
    (htaking : ∀ connect ∈ turn.connection.taking?, c.connect? = some connect) :
    Acts now closeFirst b c turn
  | bind {b' : Broker} {c' : Connection} {connect : Connect} {accepted : Accepted}
    (hconnect : c.connect? = some connect) (hasks : b.Asks b')
    (hadmitted : c.waiting? = some accepted ∧ b' = b ∨
      accepted.IsNamed ∧ b'.owner? accepted.clientId = none) :
    Acts now closeFirst b c (c'.bind b' connect accepted)
  | greet {c' : Connection} {β : Binding} {rest rest' : Bytes}
    (hphase : c.phase = .greeting β rest) :
    Acts now closeFirst b c (c'.enter b (.greeting β rest'))
  | activate {c' : Connection} {β : Binding} {rest : Bytes} (hphase : c.phase = .greeting β rest) :
    Acts now closeFirst b c (c'.activate now b β)
  | read {c' : Connection} {β : Binding} {deadline : Option Nat} {w : Writer}
    (hphase : c.phase = .serving β deadline w) (hhandles : c.handles? closeFirst b = none)
    (hsame : c'.phase = c.phase) : Acts now closeFirst b c { broker := b, connection := c' }
  | handle {c' : Connection} {β : Binding} {deadline : Option Nat} {w : Writer} {p : Packet}
    (hphase : c.phase = .serving β deadline w) (hhandles : c.handles? closeFirst b = some (β, p)) :
    Acts now closeFirst b c (c'.handle now b β w p)
  | drain {b' : Broker} {β : Binding} {deadline : Option Nat} {w : Writer} {result : Result}
    (hphase : c.phase = .serving β deadline w) (hhandles : c.handles? closeFirst b = none)
    (hasks : b.Asks b') : Acts now closeFirst b c (c.drain b' β w result)
  | conclude {β : Binding} {result : Result} (hbefore : c.binding? = some β)
    (hhandles : c.handles? closeFirst b = none)
    (hstopped : ∀ x ∈ c.writer?, x.2.phase = .stopped) :
    Acts now closeFirst b c (c.conclude b β result)

variable {now : Nat} {closeFirst : Bool} {look : Writer.Look} {b : Broker} {c : Connection}
  {turn : Turn}

/-- A packet that is handled has been received. -/
theorem receive_of_handles? {β : Binding} {p : Packet}
    (h : c.handles? closeFirst b = some (β, p)) : ∃ c', c.receive = .packet p c' := by
  unfold handles? at h
  split at h
  · obtain ⟨-, h⟩ := Option.ite_none_left_eq_some.1 h
    split at h
    · next c' hreceive =>
      cases h
      exact ⟨c', hreceive⟩
    · cases h
  · cases h

theorem receive_more {c' : Connection} (h : c.receive = .more c') : c'.phase = c.phase := by
  unfold receive at h
  split at h
  · cases h
  · cases h
  · split at h
    · cases h
      rfl
    · split at h
      · split at h <;> cases h
      · cases h

theorem binding?_congr {c' : Connection} (h : c'.phase = c.phase) : c'.binding? = c.binding? := by
  rw [binding?, h, binding?]

theorem waiting?_congr {c' : Connection} (h : c'.phase = c.phase) : c'.waiting? = c.waiting? := by
  rw [waiting?, h, waiting?]

theorem taking?_congr {c' : Connection} (h : c'.phase = c.phase) : c'.taking? = c.taking? := by
  rw [taking?, h, taking?]

theorem binding?_of_connect? {connect : Connect} (h : c.connect? = some connect) :
    c.binding? = none := by
  unfold connect? at h
  split at h
  · next hphase => rw [binding?, hphase]
  · next hphase => rw [binding?, hphase]
  · cases h

theorem asks_recordError (b : Broker) (β : Binding) (result : Result) :
    b.Asks (recordError b β result) := by
  cases result with
  | error error => exact .close .rest _ _
  | ok => exact .rest

/-! ### Before the connection is bound -/

theorem acts_of_close (hbefore : c.binding? = none) (c' : Connection) (result : Result) :
    Acts now closeFirst b c (c'.close b result) := .outside hbefore rfl nofun .rest nofun

theorem acts_of_meet (hbefore : c.binding? = none) (c' : Connection) {connect : Connect}
    (hconnect : c.connect? = some connect) : Acts now closeFirst b c (c'.meet b connect) := by
  have hasks := b.asks_validate connect
  unfold meet
  split
  · next hverdict =>
    rw [hverdict] at hasks
    exact .outside hbefore rfl nofun hasks nofun
  · next b' accepted hverdict =>
    rw [hverdict] at hasks
    have hnamed := Broker.isNamed_of_validate hverdict
    rcases b'.takeOver_cases accepted.clientId with ⟨hfree, heq⟩ | ⟨l, heq⟩
    · simp only [heq]
      exact .bind hconnect hasks (.inr ⟨hnamed, hfree⟩)
    · simp only [heq]
      refine .outside hbefore rfl ?_ (hasks.close l _) ?_
      · rintro _ ⟨⟩
        exact .inl hnamed
      · rintro _ ⟨⟩
        exact hconnect

theorem acts_of_await {deadline : Nat} (hphase : c.phase = .awaiting deadline)
    (h : c.await now b deadline = some turn) : Acts now closeFirst b c turn := by
  have hbefore : c.binding? = none := by rw [binding?, hphase]
  unfold await at h
  split at h
  · next connect _ hreceive =>
    cases h
    exact acts_of_meet hbefore _ (by simp only [connect?, hphase, hreceive])
  · cases h
    exact acts_of_close hbefore _ _
  · cases h
    exact acts_of_close hbefore _ _
  · cases h
    exact acts_of_close hbefore _ _
  · next hmore =>
    cases h
    have hsame := receive_more hmore
    refine .outside hbefore ((binding?_congr hsame).trans hbefore) (fun accepted h => ?_) .rest ?_
    · exact .inr ((waiting?_congr hsame).symm.trans h)
    · rw [taking?_congr hsame, taking?, hphase]
      exact nofun
  · split at h
    · cases h
      exact acts_of_close hbefore _ _
    · cases h

theorem acts_of_refuse {rest : Bytes} {cause : Refusal} (hphase : c.phase = .refusing rest cause)
    (h : c.refuse b rest cause = some turn) : Acts now closeFirst b c turn := by
  have hbefore : c.binding? = none := by rw [binding?, hphase]
  unfold refuse at h
  split at h
  · cases h
    exact acts_of_close hbefore _ _
  · split at h
    · cases h
      exact acts_of_close hbefore _ _
    · cases h
    · cases h
      exact .outside hbefore rfl nofun .rest nofun

/-! ### While it is bound -/

theorem acts_of_greet {β : Binding} {rest : Bytes} (hphase : c.phase = .greeting β rest)
    (h : c.greet now closeFirst b β rest = some turn) : Acts now closeFirst b c turn := by
  -- There is no writer yet that would have to stop first.
  have hconclude : ∀ result, Acts now closeFirst b c (c.conclude b β result) := by
    intro result
    refine .conclude ?_ ?_ ?_
    · rw [binding?, hphase]
    · rw [handles?, hphase]
    · rw [writer?, hphase]
      rintro _ ⟨⟩
  unfold greet at h
  dsimp only at h
  split at h
  · cases h
    exact hconclude _
  split at h
  · cases h
    exact hconclude _
  · split at h
    · cases h
      exact hconclude _
    · cases h
  · split at h
    · cases h
      exact .activate hphase
    · cases h
      exact .greet hphase

theorem acts_of_serve {β : Binding} {deadline : Option Nat} {w : Writer}
    (hphase : c.phase = .serving β deadline w)
    (h : c.serve now closeFirst b β deadline w = some turn) : Acts now closeFirst b c turn := by
  unfold serve at h
  dsimp only at h
  split at h
  · next hasked =>
    cases h
    exact .drain hphase (by rw [handles?, hphase]; exact if_pos hasked) .rest
  next hasked =>
  have hhandles : c.handles? closeFirst b = match c.receive with
      | .packet p _ => some (β, p)
      | _ => none := by
    rw [handles?, hphase]
    exact if_neg hasked
  split at h
  · next hreceive =>
    cases h
    exact .handle hphase (by rw [hhandles, hreceive])
  · next hreceive =>
    cases h
    exact .drain hphase (by rw [hhandles, hreceive]) .rest
  · next hreceive =>
    cases h
    exact .drain hphase (by rw [hhandles, hreceive]) (.close .rest _ _)
  · next hreceive =>
    cases h
    exact .read hphase (by rw [hhandles, hreceive]) (receive_more hreceive)
  · next hreceive =>
    have hdrain : ∀ result, Acts now closeFirst b c (c.drain b β w result) := fun _ =>
      .drain hphase (by rw [hhandles, hreceive]) .rest
    split at h
    · cases h
      exact hdrain _
    · split at h
      · cases h
        exact hdrain _
      · cases h

theorem acts_of_step (h : c.step now closeFirst b = some turn) : Acts now closeFirst b c turn := by
  unfold step at h
  split at h
  · next hphase => exact acts_of_await hphase h
  · next hphase => exact acts_of_refuse hphase h
  · next hphase =>
    obtain ⟨-, h⟩ := Option.ite_none_right_eq_some.1 h
    cases h
    exact .bind (by rw [connect?, hphase]) .rest (.inl ⟨by rw [waiting?, hphase], rfl⟩)
  · next hphase => exact acts_of_greet hphase h
  · next hphase => exact acts_of_serve hphase h
  · next hphase =>
    obtain ⟨hstopped, h⟩ := Option.ite_none_right_eq_some.1 h
    cases h
    refine .conclude ?_ ?_ ?_
    · rw [binding?, hphase]
    · rw [handles?, hphase]
    · rw [writer?, hphase]
      rintro _ ⟨⟩
      exact hstopped
  · cases h

/-- Who waits for a session was named when the CONNECT was decided on. -/
theorem isNamed_of_step (hnamed : ∀ accepted ∈ c.waiting?, accepted.IsNamed)
    (h : c.step now closeFirst b = some turn) :
    ∀ accepted ∈ turn.connection.waiting?, accepted.IsNamed := by
  cases acts_of_step h with
  | outside hbefore hafter hwaiting =>
    exact fun accepted h => (hwaiting accepted h).elim id (hnamed accepted)
  | bind =>
    unfold bind
    dsimp only
    split
    · exact nofun
    · exact nofun
  | read hphase hhandles hsame =>
    rw [waiting?_congr hsame]
    exact hnamed
  | handle =>
    unfold handle
    dsimp only
    split <;> exact nofun
  | greet | activate | drain | conclude => exact nofun

/-! ### The writer -/

section

variable {β : Binding} {w : Writer}

theorem binding?_of_writer? (h : c.writer? = some (β, w)) : c.binding? = some β := by
  unfold writer? at h
  split at h
  · next hphase =>
    cases h
    rw [binding?, hphase]
  · next hphase =>
    cases h
    rw [binding?, hphase]
  · cases h

/-- The writer of a connection is the one it had, or has just started, now that the CONNACK is
out. -/
theorem writer_of_step (h : c.step now closeFirst b = some turn)
    (hw : turn.connection.writer? = some (β, w)) : (∃ β, c.writer? = some (β, w)) ∨
      (∃ rest, c.phase = .greeting β rest) ∧ w = .start β.link b.limits.maxUnflushedBytes := by
  have hkept : ∀ {β₁ β₂ : Binding} {w₁ : Writer}, c.writer? = some (β₁, w₁) →
      turn.connection.writer? = some (β₂, w₁) → ∃ β, c.writer? = some (β, w) := by
    intro β₁ β₂ w₁ hbefore hafter
    cases hafter.symm.trans hw
    exact ⟨β₁, hbefore⟩
  cases acts_of_step h with
  | outside _ hafter => cases hafter.symm.trans (binding?_of_writer? hw)
  | bind =>
    unfold bind at hw
    dsimp only at hw
    split at hw <;> cases hw
  | greet | conclude => cases hw
  | activate hphase =>
    cases hw
    exact .inr ⟨⟨_, hphase⟩, rfl⟩
  | read _ _ hsame =>
    rw [writer?, hsame] at hw
    exact .inl ⟨β, hw⟩
  | @handle c' β₁ deadline w₁ p hphase =>
    left
    have hbefore : c.writer? = some (β₁, w₁) := by rw [writer?, hphase]
    unfold handle at hkept
    dsimp only at hkept
    split at hkept <;> exact hkept hbefore rfl
  | drain hphase => exact .inl (hkept (by rw [writer?, hphase]) rfl)

end

theorem writer?_setWriter {β : Binding} {w : Writer} (h : c.writer? = some (β, w)) (w' : Writer) :
    (c.setWriter w').writer? = some (β, w') := by
  unfold writer? at h
  split at h
  · next hphase =>
    cases h
    rw [setWriter, hphase, writer?]
  · next hphase =>
    cases h
    rw [setWriter, hphase, writer?]
  · cases h

/-- Of its connection a step of the writer changes the writer and the stream to the client. -/
theorem connection_of_writeStep (h : c.writeStep now look b = some turn) :
    ∃ outbound w, turn.connection = ({ c with outbound } : Connection).setWriter w := by
  obtain ⟨⟨β, w⟩, -, h⟩ := Option.bind_eq_some_iff.1 h
  obtain ⟨turn', -, h⟩ := Option.bind_eq_some_iff.1 h
  cases h
  exact ⟨_, turn'.writer, rfl⟩

/-- The writer takes a step. If it fails, the connection is asked to close. -/
theorem writes_of_writeStep (h : c.writeStep now look b = some turn) :
    ∃ β w turn', c.writer? = some (β, w) ∧
      Writer.Acts { now, room := c.outbound.room, reason := (b.lease β.lease).reason, look }
        (b.session β.session) w turn' ∧
      turn.connection.writer? = some (β, turn'.writer) ∧
      (b.putSession β.session turn'.session).Asks turn.broker := by
  obtain ⟨⟨β, w⟩, hwriter, h⟩ := Option.bind_eq_some_iff.1 h
  obtain ⟨turn', hturn', h⟩ := Option.bind_eq_some_iff.1 h
  cases h
  let c₁ : Connection := { c with outbound := transmit c.outbound turn' }
  have hwriter' : (c₁.setWriter turn'.writer).writer? = some (β, turn'.writer) :=
    writer?_setWriter (c := c₁) hwriter _
  refine ⟨β, w, turn', hwriter, Writer.acts_of_step hturn', hwriter', ?_⟩
  dsimp only
  split
  · exact .close .rest _ _
  · exact .rest

end Connection

end MqttBroker
