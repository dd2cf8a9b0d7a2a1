import MqttBroker.Proofs.Session.InFlight
import MqttBroker.Session.Basic
/-! What each operation on a session changes, and what it leaves alone. -/

namespace MqttBroker

theorem Signal.take?_eq_some {s s' : Signal} (h : s.take? = some s') :
    s.permit = true ∧ s' = ⟨false⟩ := by
  unfold take? at h
  split at h
  · next hpermit => exact ⟨hpermit, (Option.some.inj h).symm⟩
  · cases h

namespace Outbox

variable {o o' : Outbox}

theorem awaken?_eq_some (h : o.awaken? = some o') : o' = { o with filled := ⟨false⟩ } := by
  obtain ⟨filled, hfilled, rfl⟩ := Option.map_eq_some_iff.1 h
  rw [(Signal.take?_eq_some hfilled).2]

theorem next?_eq_some {item : Outgoing} (h : o.next? = some (item, o')) :
    ∃ rest, o.items = item :: rest ∧ o' = { o with items := rest } := by
  unfold next? at h
  split at h
  · cases h
  · next hitems =>
    cases h
    exact ⟨_, hitems, rfl⟩

end Outbox

namespace Session

variable {s s' : Session}

/-- With one more item at the tail of the outbox, and a permit for the writer. -/
def append (s : Session) (item : Outgoing) : Session :=
  { s with outbox := { s.outbox with items := s.outbox.items ++ [item], filled := ⟨true⟩ } }

@[simp] theorem append_items (s : Session) (item : Outgoing) :
    (s.append item).outbox.items = s.outbox.items ++ [item] := rfl

@[simp] theorem append_window (s : Session) (item : Outgoing) :
    (s.append item).window = s.window := rfl

@[simp] theorem append_slotFreed (s : Session) (item : Outgoing) :
    (s.append item).slotFreed = s.slotFreed := rfl

theorem enqueue?_eq_some {item : Outgoing} (h : s.enqueue? item = some s') :
    s' = s.append item := by
  obtain ⟨o', ho', rfl⟩ := Option.map_eq_some_iff.1 h
  obtain ⟨o, ho, rfl⟩ := Option.map_eq_some_iff.1 ho'
  unfold Outbox.push? at ho
  split at ho
  · cases ho
  · cases ho
    rfl

theorem awaken?_eq_some (h : s.awaken? = some s') :
    s.slotFreed.permit = true ∧ s' = { s with slotFreed := ⟨false⟩ } := by
  obtain ⟨slotFreed, hfreed, rfl⟩ := Option.map_eq_some_iff.1 h
  obtain ⟨hpermit, rfl⟩ := Signal.take?_eq_some hfreed
  exact ⟨hpermit, rfl⟩

theorem reserve?_eq_some {limit : Nat} {p : Publication} {id : UInt16}
    (h : s.reserve? limit p = some (s', id)) :
    s.window.size < limit ∧ s' = { s with window := (s.window.insert p).1 } ∧
      id = s.window.freshId := by
  unfold reserve? at h
  split at h
  · next hroom =>
    cases h
    exact ⟨hroom, rfl, rfl⟩
  · cases h

theorem reserve?_eq_none {limit : Nat} {p : Publication} :
    s.reserve? limit p = none ↔ limit ≤ s.window.size := by
  unfold reserve?
  split
  · next hroom => simp [hroom]
  · next hfull => simp [Nat.not_lt.1 hfull]

theorem offer_cases (s : Session) (m : Message) :
    s.offer m = (s, .skipped) ∨ s.offer m = (s, .full) ∨
      ∃ qos, s.offer m = (s.append (.publish (Publication.ofMessage m qos)), .queued) := by
  unfold offer
  split
  · exact .inl rfl
  · next granted _ =>
    dsimp only
    split
    · exact .inl rfl
    · split
      · next hsome =>
        rw [enqueue?_eq_some hsome]
        exact .inr (.inr ⟨min m.qos granted, rfl⟩)
      · exact .inr (.inl rfl)

/-! ### Acknowledgements -/

theorem settle_cases (s : Session) (window? : Option Window) :
    (window? = none ∧ (s.settle window?).1 = s) ∨
      ∃ window, window? = some window ∧
        (s.settle window?).1 = { s with window, slotFreed := ⟨true⟩ } := by
  cases window? with
  | none => exact .inl ⟨rfl, rfl⟩
  | some window => exact .inr ⟨window, rfl, rfl⟩

theorem received_cases (s : Session) (id : UInt16) :
    (s.window.received? id = none ∧ s.received id = (s, false)) ∨
      ∃ window, s.window.received? id = some window ∧
        s.received id = ({ s with window }, true) := by
  unfold received
  cases s.window.received? id with
  | none => exact .inl ⟨rfl, rfl⟩
  | some window => exact .inr ⟨window, rfl, rfl⟩

theorem mem_of_mem_settle {s : Session} {p : InFlight → Bool} {window? : Option Window}
    (h : s.window.Removes p window?) {e : InFlight}
    (he : e ∈ (s.settle window?).1.window.entries) :
    e ∈ s.window.entries ∧ (p e = false ∨ e ∈ s.window.entries.eraseP p) := by
  rcases h with ⟨rfl, hnone⟩ | rfl
  · exact ⟨he, .inl (Bool.eq_false_iff.2 (List.find?_eq_none.1 hnone e he))⟩
  · exact ⟨List.mem_of_mem_eraseP he, .inr he⟩

@[simp] theorem settle_outbox (s : Session) (window? : Option Window) :
    (s.settle window?).1.outbox = s.outbox := by
  cases window? <;> rfl

@[simp] theorem ack_outbox (s : Session) (id : UInt16) : (s.ack id).1.outbox = s.outbox :=
  s.settle_outbox _

@[simp] theorem complete_outbox (s : Session) (id : UInt16) :
    (s.complete id).1.outbox = s.outbox := s.settle_outbox _

@[simp] theorem abandon_outbox (s : Session) (id : UInt16) :
    (s.abandon id).1.outbox = s.outbox := s.settle_outbox _

end Session

end MqttBroker
