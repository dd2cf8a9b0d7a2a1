import MqttBroker.Proofs.Network.Acts
import MqttBroker.Proofs.Network.Turns
/-!
How a connection comes to an end, and what it ends with. A connection that serves its client stops
reading because it is asked to, because of what it has read, or because nothing comes; what it ends
with is settled then.
-/

namespace MqttBroker

namespace Connection

/-- What the connection ends with, as far as it can tell by itself, once it has stopped reading. -/
def result? (c : Connection) : Option Result :=
  match c.phase with
  | .draining _ result _ | .ended result => some result
  | _ => none

/-- Everything a connection can do next that serves its client. It looks at the stream unless it is
asked to close and looks at that first. -/
inductive Serves (now : Nat) (closeFirst : Bool) (b : Broker) (c : Connection) (β : Binding)
    (w : Writer) : Turn → Prop where
  | asked (hasked : (b.lease β.lease).reason.isSome = true) :
    Serves now closeFirst b c β w (c.drain b β w (.ok ()))
  | handle {c' : Connection} {p : Packet} (hreceive : c.receive = .packet p c')
    (hlooks : (b.lease β.lease).reason.isSome = true → closeFirst = false) :
    Serves now closeFirst b c β w (c'.handle now b β w p)
  | unreadable {error : SessionError} (hreceive : c.receive = .failed error)
    (hlooks : (b.lease β.lease).reason.isSome = true → closeFirst = false) :
    Serves now closeFirst b c β w (c.drain b β w (.error error))
  | finished (hreceive : c.receive = .finished) :
    Serves now closeFirst b c β w
      (c.drain (b.closeLease β.lease .connectionLost) β w (.ok ()))
  | read {c' : Connection} (hreceive : c.receive = .more c') :
    Serves now closeFirst b c β w { broker := b, connection := c' }
  | expired (hlooks : (b.lease β.lease).reason.isSome = true → closeFirst = false) :
    Serves now closeFirst b c β w (c.drain b β w (.error .keepAliveTimeout))

variable {now : Nat} {closeFirst : Bool} {look : Writer.Look} {b : Broker} {c c' : Connection}
  {β : Binding} {deadline : Option Nat} {w : Writer} {turn : Turn}

theorem serves_of_serve (h : c.serve now closeFirst b β deadline w = some turn) :
    c.Serves now closeFirst b β w turn := by
  unfold serve at h
  dsimp only at h
  split at h
  · next hfirst =>
    cases h
    exact .asked (Bool.and_eq_true_iff.1 hfirst).1
  next hfirst =>
  have hlooks : (b.lease β.lease).reason.isSome = true → closeFirst = false := by
    intro hasked
    rw [hasked, Bool.true_and] at hfirst
    simpa using hfirst
  split at h
  · next hreceive =>
    cases h
    exact .handle hreceive hlooks
  · next hreceive =>
    cases h
    exact .unreadable hreceive hlooks
  · next hreceive =>
    cases h
    exact .finished hreceive
  · next hreceive =>
    cases h
    exact .read hreceive
  · split at h
    · cases h
      exact .expired hlooks
    · split at h
      · next hasked =>
        cases h
        exact .asked hasked
      · cases h

theorem result?_congr (h : c'.phase = c.phase) : c'.result? = c.result? := by
  rw [result?, h, result?]

theorem result?_setWriter (c : Connection) (w : Writer) :
    (c.setWriter w).result? = c.result? := by
  unfold setWriter
  split
  · next hphase => rw [result?, result?, hphase]
  · next hphase => rw [result?, result?, hphase]
  · rfl

theorem inbox_setWriter (c : Connection) (w : Writer) : (c.setWriter w).inbox = c.inbox := by
  unfold setWriter
  split <;> rfl

/-- A writer settles nothing. -/
theorem result?_of_writeStep (h : c.writeStep now look b = some turn) :
    turn.connection.result? = c.result? ∧ turn.connection.inbox = c.inbox := by
  obtain ⟨outbound, w, heq⟩ := connection_of_writeStep h
  rw [heq]
  exact ⟨result?_setWriter .., inbox_setWriter ..⟩

end Connection

end MqttBroker
