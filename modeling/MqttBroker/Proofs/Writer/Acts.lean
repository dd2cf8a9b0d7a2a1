import MqttBroker.Connection.Writer
/-!
What one step of a writer can do, said once: an inversion of `Writer.step` with one case for each
way a step goes. Invariants of writers and of the sessions they serve are proved from it.
-/

namespace MqttBroker

/-- The packet that is sent again. -/
def Redelivery.packet : Redelivery → Packet
  | publish id p => .publish (p.toPublish (some id))
  | release id => .pubRel { packetId := id }

namespace Writer

namespace Phase

/-- Does the writer need the transport to go on? -/
def isTransmitting : Phase → Bool
  | writing .. | flushing => true
  | _ => false

def isWriting : Phase → Bool
  | writing .. => true
  | _ => false

end Phase

/-- Where a writer goes on after a packet: with what is left to be sent again, or with the
outbox. -/
def resume (w : Writer) (s : Session) : Option (List Redelivery) → Phase
  | some left => .redelivering left
  | none => w.settle s

/-- What the writer is writing goes no further unless the transport takes bytes. -/
def IsHeldUp (w : Writer) : Prop :=
  ∀ rest size left, w.phase = .writing rest size left → w.output.needsRoom rest = true

/-- Everything a step of a writer can do to itself and to its session. -/
inductive Acts (env : Surroundings) (s : Session) (w : Writer) : Turn → Prop where
  | lookUp (hphase : w.phase = .starting) :
    Acts env s w (w.enter s (.redelivering s.window.redelivery))
  | resent (hphase : w.phase = .redelivering []) : Acts env s w (w.enter s .flushing)
  | resend {r : Redelivery} {left : List Redelivery}
    (hphase : w.phase = .redelivering (r :: left)) :
    Acts env s w (w.put s r.packet (some left))
  /-- The transport takes no more ever. -/
  | lose (hphase : w.phase.isTransmitting = true) (hneeds : w.IsHeldUp) : Acts env s w (w.fail s)
  /-- The transport takes nothing now, and the connection is asked to close. -/
  | interrupt (hphase : w.phase.isTransmitting = true) (hreason : env.reason.isSome = true)
    (hneeds : w.IsHeldUp) : Acts env s w (w.close env s)
  | write {rest rest' sent : Bytes} {size room : Nat} {left : Option (List Redelivery)}
    {output : Output} (hphase : w.phase = .writing rest size left)
    (haccept : w.output.accept rest room = (output, rest', sent)) (hrest : rest' ≠ []) :
    Acts env s w { ({ w with output }).enter s (.writing rest' size left) with sent }
  | written {rest sent : Bytes} {size room : Nat} {left : Option (List Redelivery)}
    {output : Output} {w' : Writer} (hphase : w.phase = .writing rest size left)
    (haccept : w.output.accept rest room = (output, [], sent))
    (hw : w' = { w with output, unflushed := w.unflushed + size }) :
    Acts env s w { w'.enter s (w'.resume s left) with sent }
  | flush {room : Nat} (hphase : w.phase = .flushing) :
    Acts env s w
      { ({ w with output := (w.output.drain room).1 }).enter s .flushing with
        sent := (w.output.drain room).2 }
  | flushed (hphase : w.phase = .flushing) (hpending : w.output.pending = []) :
    Acts env s w { ({ w with unflushed := 0 }).enter s (.taking false) with flushed := true }
  | leave {parked : Bool} (hphase : w.phase = .taking parked)
    (hreason : env.reason.isSome = true) : Acts env s w (w.close env s)
  | wake {parked : Bool} {outbox : Outbox} (hphase : w.phase = .taking parked)
    (hempty : parked = true ∨ s.outbox.items = []) (hpermit : s.outbox.awaken? = some outbox) :
    Acts env s w (w.enter { s with outbox } (.taking false))
  | park (hphase : w.phase = .taking false) (hreason : env.reason = none)
    (hempty : s.outbox.items = []) (hpermit : s.outbox.awaken? = none) :
    Acts env s w (w.enter s (.taking true))
  | take {item : Outgoing} {outbox : Outbox} (hphase : w.phase = .taking false)
    (hnext : s.outbox.next? = some (item, outbox)) :
    Acts env s w (w.begin { s with outbox } item)
  /-- The message in hand goes back, as the connection is asked to close. -/
  | giveBack {p : Publication} {parked : Bool} (hphase : w.phase = .reserving p parked)
    (hreason : env.reason.isSome = true) :
    Acts env s w (w.close env { s with outbox := s.outbox.requeue (.publish p) })
  /-- The message in hand is lost, as the request to close is seen only outside the wait. -/
  | forsake {p : Publication} (hphase : w.phase = .reserving p true)
    (hreason : env.reason.isSome = true) (hlook : env.look = .closeLate) :
    Acts env s w (w.close env s)
  | wakeReserving {p : Publication} {parked : Bool} {s' : Session}
    (hphase : w.phase = .reserving p parked) (hpermit : s.awaken? = some s') :
    Acts env s w (w.enter s' (.reserving p false))
  | parkReserving {p : Publication} (hphase : w.phase = .reserving p false)
    (hreason : env.reason = none) (hfull : s.reserve? w.link.inFlightLimit p = none)
    (hpermit : s.awaken? = none) : Acts env s w (w.enter s (.reserving p true))
  | reserve {p : Publication} {s' : Session} {id : UInt16} (hphase : w.phase = .reserving p false)
    (hreserve : s.reserve? w.link.inFlightLimit p = some (s', id)) :
    Acts env s w (w.put s' (.publish (p.toPublish (some id))) none)
  | finish {rest rest' sent : Bytes} {deadline : Nat} {output : Output}
    (hphase : w.phase = .closing rest deadline)
    (hsent : ∃ room, w.output.accept rest room = (output, rest', sent) ∨
      rest' = rest ∧ w.output.drain room = (output, sent)) :
    Acts env s w { ({ w with output }).enter s (.closing rest' deadline) with sent }
  | stop {rest : Bytes} {deadline : Nat} {flushed ended : Bool}
    (hphase : w.phase = .closing rest deadline) :
    Acts env s w { w.enter s .stopped with flushed, ended }

section

variable {env : Surroundings} {s : Session} {w : Writer} {turn : Turn}

theorem blocked_eq_some (h : w.blocked env s = some turn) :
    env.reason.isSome = true ∧ turn = w.close env s := by
  unfold blocked at h
  split at h
  · next hreason => exact ⟨hreason, (Option.some.inj h).symm⟩
  · cases h

theorem acts_of_write {rest : Bytes} {size : Nat} {left : Option (List Redelivery)}
    (hphase : w.phase = .writing rest size left) (h : w.write env s rest size left = some turn) :
    Acts env s w turn := by
  have hbusy : w.phase.isTransmitting = true := by rw [hphase]; rfl
  -- What a step does once it is known how much the transport takes.
  have hgo : ∀ room, ∀ turn, some turn =
      some (if (w.output.accept rest room).2.1.isEmpty then
        let w' := { w with
          output := (w.output.accept rest room).1, unflushed := w.unflushed + size }
        { w'.enter s (w'.resume s left) with sent := (w.output.accept rest room).2.2 }
      else
        { ({ w with output := (w.output.accept rest room).1 }).enter s
            (.writing (w.output.accept rest room).2.1 size left) with
          sent := (w.output.accept rest room).2.2 }) → Acts env s w turn := by
    intro room turn hturn
    cases Option.some.inj hturn
    split
    · next hempty =>
      have haccept : w.output.accept rest room =
          ((w.output.accept rest room).1, [], (w.output.accept rest room).2.2) := by
        rw [← List.isEmpty_iff.1 hempty]
      exact .written hphase haccept rfl
    · next hmore =>
      have haccept : w.output.accept rest room = (_, _, _) := rfl
      exact .write hphase haccept (by simpa using hmore)
  unfold write at h
  dsimp only at h
  split at h
  · next hneeds =>
    have hheld : w.IsHeldUp := by
      intro rest' size' left' hphase'
      cases hphase.symm.trans hphase'
      exact hneeds
    split at h
    · cases h
      exact .lose hbusy hheld
    · obtain ⟨hreason, rfl⟩ := blocked_eq_some h
      exact .interrupt hbusy hreason hheld
    · next room _ _ => exact hgo room turn h.symm
  · exact hgo 0 turn h.symm

theorem acts_of_flush (hphase : w.phase = .flushing) (h : w.flush env s = some turn) :
    Acts env s w turn := by
  have hbusy : w.phase.isTransmitting = true := by rw [hphase]; rfl
  have hheld : w.IsHeldUp := fun _ _ _ hphase' => nomatch hphase.symm.trans hphase'
  unfold flush at h
  split at h
  · next hempty =>
    cases h
    exact .flushed hphase (List.isEmpty_iff.1 hempty)
  · split at h
    · cases h
      exact .lose hbusy hheld
    · obtain ⟨hreason, rfl⟩ := blocked_eq_some h
      exact .interrupt hbusy hreason hheld
    · cases h
      exact .flush hphase

theorem acts_of_next {parked : Bool} (hphase : w.phase = .taking parked)
    (h : w.next env s parked = some turn) : Acts env s w turn := by
  unfold next at h
  dsimp only at h
  split at h
  · next hreason =>
    cases h
    exact .leave hphase (Bool.and_eq_true_iff.1 hreason).1
  split at h
  · next hparked =>
    split at h
    · next hpermit =>
      cases h
      exact .wake hphase (.inl hparked) hpermit
    · split at h
      · next hreason =>
        cases h
        exact .leave hphase hreason
      · cases h
  · next hparked =>
    obtain rfl : parked = false := by simpa using hparked
    split at h
    · next hnext =>
      cases h
      exact .take hphase hnext
    · next hnext =>
      have hempty : s.outbox.items = [] := by
        unfold Outbox.next? at hnext
        split at hnext
        · next hitems => exact hitems
        · cases hnext
      split at h
      · next hpermit =>
        cases h
        exact .wake hphase (.inr hempty) hpermit
      · next hpermit =>
        split at h
        · next hreason =>
          cases h
          exact .leave hphase hreason
        · next hreason =>
          cases h
          exact .park hphase (by simpa using hreason) hempty hpermit

theorem acts_of_reserve {p : Publication} {parked : Bool} (hphase : w.phase = .reserving p parked)
    (h : w.reserve env s p parked = some turn) : Acts env s w turn := by
  unfold reserve at h
  dsimp only at h
  split at h
  · next hreason =>
    cases h
    exact .giveBack hphase (Bool.and_eq_true_iff.1 hreason).1
  split at h
  · next hlate =>
    cases h
    simp only [Bool.and_eq_true, decide_eq_true_eq] at hlate
    obtain ⟨⟨hreason, hlook⟩, rfl⟩ := hlate
    exact .forsake hphase hreason hlook
  split at h
  · split at h
    · next hpermit =>
      cases h
      exact .wakeReserving hphase hpermit
    · split at h
      · next hreason =>
        cases h
        exact .giveBack hphase hreason
      · cases h
  · next hparked =>
    obtain rfl : parked = false := by simpa using hparked
    split at h
    · next hreserve =>
      cases h
      exact .reserve hphase hreserve
    · next hfull =>
      split at h
      · next hpermit =>
        cases h
        exact .wakeReserving hphase hpermit
      · next hpermit =>
        split at h
        · next hreason =>
          cases h
          exact .giveBack hphase hreason
        · next hreason =>
          cases h
          exact .parkReserving hphase (by simpa using hreason) hfull hpermit

theorem acts_of_finish {rest : Bytes} {deadline : Nat} (hphase : w.phase = .closing rest deadline)
    (h : w.finish env s rest deadline = some turn) : Acts env s w turn := by
  unfold finish at h
  split at h
  · cases h
    exact .stop hphase
  split at h
  · cases h
    exact .finish hphase ⟨0, .inl rfl⟩
  split at h
  · cases h
    exact .stop hphase
  · split at h
    · cases h
      exact .stop hphase
    · cases h
  · next room _ _ =>
    split at h
    · cases h
      exact .finish hphase ⟨room, .inr ⟨rfl, rfl⟩⟩
    · cases h
      exact .finish hphase ⟨room, .inl rfl⟩

theorem acts_of_step (h : w.step env s = some turn) : Acts env s w turn := by
  unfold step at h
  split at h
  · next hphase => cases h; exact .lookUp hphase
  · next hphase => cases h; exact .resent hphase
  · next hphase => cases h; exact .resend hphase
  · next hphase => cases h; exact .resend hphase
  · next hphase => exact acts_of_write hphase h
  · next hphase => exact acts_of_flush hphase h
  · next hphase => exact acts_of_next hphase h
  · next hphase => exact acts_of_reserve hphase h
  · next hphase => exact acts_of_finish hphase h
  · cases h

end

end Writer

end MqttBroker
