import MqttBroker.Broker.Basic
/-! What is read from a broker after one of its sessions or leases was changed. -/

namespace MqttBroker

theorem Lease.close_close (l : Lease) (reason reason' : CloseReason) :
    (l.close reason).close reason' = l.close reason := by
  simp only [close, Option.or_assoc, Option.some_or]

namespace Broker

variable {b b' : Broker} {id id' : SessionId} {l l' : LeaseId}

theorem session_eq_getElem (hid : id < b.sessions.length) : b.session id = b.sessions[id] := by
  rw [session, session?, List.getElem?_eq_getElem hid, Option.getD_some]

theorem lease_eq_getElem (hl : l < b.leases.length) : b.lease l = b.leases[l] := by
  rw [lease, List.getElem?_eq_getElem hl, Option.getD_some]

@[simp] theorem length_updateSession (b : Broker) (id : SessionId) (f : Session → Session) :
    (b.updateSession id f).sessions.length = b.sessions.length := List.length_modify ..

theorem session_updateSession (hid : id < b.sessions.length) (f : Session → Session) :
    (b.updateSession id f).session id = f (b.session id) := by
  simp [session, session?, updateSession, List.getElem?_modify_eq, List.getElem?_eq_getElem hid]

theorem session_updateSession_of_ne (hne : id ≠ id') (f : Session → Session) :
    (b.updateSession id f).session id' = b.session id' := by
  simp [session, session?, updateSession, hne]

theorem updateSession_of_le (hid : b.sessions.length ≤ id) (f : Session → Session) :
    b.updateSession id f = b := by
  simp [updateSession, List.modify_eq_self hid]

theorem updateSession_updateSession (b : Broker) (id : SessionId) (f g : Session → Session) :
    (b.updateSession id f).updateSession id g = b.updateSession id (g ∘ f) := by
  rw [updateSession, updateSession, updateSession, List.modify_modify_eq]

theorem putSession_session (b : Broker) (id : SessionId) (f : Session → Session) :
    b.putSession id (f (b.session id)) = b.updateSession id f := by
  rcases Nat.lt_or_ge id b.sessions.length with hid | hid
  · rw [putSession, updateSession, updateSession, List.modify_eq_take_cons_drop hid,
      List.modify_eq_take_cons_drop hid, session_eq_getElem hid]
  · rw [putSession, updateSession_of_le hid, updateSession_of_le hid]

/-- What a change of a session leaves alone is left alone in every session. -/
theorem session_updateSession_congr {α : Type} (part : Session → α) {f : Session → Session}
    (h : part (f (b.session id)) = part (b.session id)) (id' : SessionId) :
    part ((b.updateSession id f).session id') = part (b.session id') := by
  rcases Nat.lt_or_ge id b.sessions.length with hid | hid
  · by_cases heq : id = id'
    · rw [← heq, session_updateSession hid, h]
    · rw [session_updateSession_of_ne heq]
  · rw [updateSession_of_le hid]

@[simp] theorem length_updateLease (b : Broker) (l : LeaseId) (f : Lease → Lease) :
    (b.updateLease l f).leases.length = b.leases.length := List.length_modify ..

theorem lease_updateLease (hl : l < b.leases.length) (f : Lease → Lease) :
    (b.updateLease l f).lease l = f (b.lease l) := by
  simp [lease, updateLease, List.getElem?_modify_eq, List.getElem?_eq_getElem hl]

theorem lease_updateLease_of_ne (hne : l ≠ l') (f : Lease → Lease) :
    (b.updateLease l f).lease l' = b.lease l' := by
  simp [lease, updateLease, hne]

theorem sessions_ext (hlength : b.sessions.length = b'.sessions.length)
    (h : ∀ id, b.session id = b'.session id) : b.sessions = b'.sessions := by
  refine List.ext_getElem hlength fun id hid hid' => ?_
  have hsession := h id
  rwa [session_eq_getElem hid, session_eq_getElem hid'] at hsession

theorem updateLease_of_le (hl : b.leases.length ≤ l) (f : Lease → Lease) :
    b.updateLease l f = b := by
  simp [updateLease, List.modify_eq_self hl]

end Broker

end MqttBroker
