import MqttBroker.Proofs.Packet.Relayed
import MqttBroker.Proofs.Session.Identifiers
import MqttBroker.Proofs.Writer.Traffic
/-!
Writers that have only what can be sent: in the outbox, in the in-flight window, in the hand, and
among what is to be sent again. Such a writer never fails for want of an encoding, so the messages
behind get their turn.
-/

namespace MqttBroker

/-- A message that can be sent under an identifier, until it is acknowledged. -/
structure Publication.Tracked (p : Publication) : Prop extends p.Sendable where
  qos_ne : p.qos ≠ .atMostOnce

theorem Publication.Tracked.travels {p : Publication} (h : p.Tracked) (dup : Bool) {id : UInt16}
    (hid : id ≠ 0) (level : Level) :
    (Packet.publish ({ p with dup }.toPublish (some id))).Travels level :=
  (h.repeated h.qos_ne dup).travels_numbered h.qos_ne hid level

def Redelivery.Sendable : Redelivery → Prop
  | publish id p => id ≠ 0 ∧ p.Tracked
  | release id => id ≠ 0

theorem Redelivery.Sendable.travels {r : Redelivery} (h : r.Sendable) (level : Level) :
    r.packet.Travels level := by
  cases r with
  | publish id p => exact h.2.travels p.dup h.1 level
  | release id =>
    apply Packet.Canonical.travels
    refine ⟨⟨h, fun _ => rfl, ⟨fun _ hmem => absurd hmem List.not_mem_nil, fun _ => rfl⟩⟩, ?_⟩
    cases level <;> exact Nat.le_of_ble_eq_true rfl

namespace Window

variable {w : Window}

/-- Every message in flight can be sent again. -/
structure Laden (w : Window) : Prop where
  numbered : w.Numbered
  tracked : ∀ e ∈ w.entries, e.publication.Tracked

theorem Laden.empty : Laden {} := ⟨.empty, nofun⟩

theorem Laden.redelivery (h : w.Laden) : ∀ r ∈ w.redelivery, r.Sendable := by
  intro r hr
  obtain ⟨e, he, rfl⟩ := List.mem_map.1 hr
  have hid := h.numbered.nonzero e he
  have htracked := h.tracked e he
  dsimp only
  split
  · exact ⟨hid, ⟨htracked.repeated htracked.qos_ne true, htracked.qos_ne⟩⟩
  · exact hid

theorem Laden.reply (h : w.Laden) (id : UInt16) (r : Reply) : (w.reply id r).1.Laden := by
  refine ⟨h.numbered.reply id r, ?_⟩
  rcases w.reply_cases id r with heq | heq | hreleases
  · rw [heq]
    exact h.tracked
  · rw [heq]
    exact fun e he => h.tracked e (List.mem_of_mem_eraseP he)
  · intro e he
    have hmem := List.mem_map_of_mem (f := InFlight.publication) he
    rw [hreleases.map_eq fun _ => rfl] at hmem
    obtain ⟨e', he', heq⟩ := List.mem_map.1 hmem
    exact heq ▸ h.tracked e' he'

theorem Laden.insert (h : w.Laden) (hsize : w.size ≤ 65534) {p : Publication} (hp : p.Tracked) :
    (w.insert p).1.Laden := by
  have hlt : w.size < 65535 := Nat.lt_succ_of_le hsize
  constructor
  case numbered =>
    exact h.numbered.concat (holds_freshId h.numbered.next hlt) (freshId_ne_zero h.numbered.next) p
  case tracked =>
    intro e he
    rcases List.mem_append.1 he with hold | hnew
    · exact h.tracked e hold
    · cases List.mem_singleton.1 hnew
      exact hp

end Window

/-- Every message that waits or is in flight can be sent. -/
structure Session.Laden (s : Session) : Prop where
  queued : ∀ p, .publish p ∈ s.outbox.items → p.Sendable
  window : s.window.Laden

namespace Writer

/-- So can what the writer has taken. -/
structure Phase.Laden (phase : Phase) : Prop where
  hand : ∀ p ∈ phase.hand, p.Tracked
  left : ∀ r ∈ phase.left, r.Sendable

variable {env : Surroundings} {s : Session} {w : Writer} {turn : Turn}

theorem Phase.Laden.of_isEnding {phase : Phase} (h : phase.isEnding = true) : phase.Laden := by
  constructor
  · rw [hand_of_isEnding h]
    exact nofun
  · rw [left_of_isEnding h]
    exact nofun

/-- Nothing comes into the hand but from the outbox, and nothing into the window but from the
hand. -/
theorem laden_of_traffic (h : Traffic env s w turn) (hs : s.Laden) (hw : w.phase.Laden)
    (hlimit : w.link.inFlightLimit ≤ 65535) :
    turn.session.window.Laden ∧ turn.writer.phase.Laden := by
  have hleft : ∀ r ∈ turn.writer.phase.left, r.Sendable := by
    intro r hr
    rcases h.left_subset with hsub | hsame
    · exact hw.left r (hsub hr)
    · rw [hsame] at hr
      exact hs.window.redelivery r hr
  have hempty : turn.writer.phase.hand = [] → turn.writer.phase.Laden := by
    intro hnone
    refine ⟨?_, hleft⟩
    rw [hnone]
    exact nofun
  have hsame : turn.session.window = s.window → turn.session.window.Laden := by
    intro hwindow
    rw [hwindow]
    exact hs.window
  cases h with
  | idle _ hwindow hphase => exact ⟨hsame hwindow, hphase.hand ▸ hw.hand, hleft⟩
  | lookUp _ hsession hnext => exact ⟨hsame (by rw [hsession]), hempty (by rw [hnext]; rfl)⟩
  | control _ _ hsession hnext =>
    exact ⟨hsame (by rw [hsession]; rfl), hempty (by rw [hnext]; rfl)⟩
  | drop _ _ hsession _ hnext =>
    refine ⟨hsame (by rw [hsession]; rfl), hempty ?_⟩
    rcases hnext with hnext | hnext <;> rw [hnext] <;> rfl
  | stop hsession _ _ hnext | giveBack _ _ hsession hnext | forsake _ _ _ hsession hnext =>
    exact ⟨hsame (by rw [hsession]), .of_isEnding hnext⟩
  | resend _ hsession hstarts => exact ⟨hsame (by rw [hsession]), hempty hstarts.hand⟩
  | transient _ _ hsession _ hstarts =>
    exact ⟨hsame (by rw [hsession]; rfl), hempty hstarts.hand⟩
  -- Only these two move a message: from the outbox to the hand, and on to the window.
  | @hold p rest _ hitems hsession _ hqos hnext =>
    refine ⟨hsame (by rw [hsession]; rfl), ?_, hleft⟩
    have hp : p.Sendable := hs.queued p (by rw [hitems]; exact List.mem_cons_self)
    rw [hnext]
    intro p' hmem
    cases List.mem_singleton.1 hmem
    exact ⟨hp, hqos⟩
  | @reserve p s' id hphase hreserve hsession hstarts =>
    refine ⟨?_, hempty hstarts.hand⟩
    obtain ⟨hroom, rfl, -⟩ := Session.reserve?_eq_some hreserve
    have hp : p.Tracked := hw.hand p (by rw [hphase]; exact List.mem_singleton_self p)
    rw [hsession]
    exact hs.window.insert (by omega) hp

/-- The packets that the next step of a writer may have to encode. -/
inductive Attempts (s : Session) (w : Writer) : Packet → Prop where
  | again {r : Redelivery} {left : List Redelivery} (hphase : w.phase = .redelivering (r :: left)) :
    Attempts s w r.packet
  | plain {p : Publication} {rest : List Outgoing} (hitems : s.outbox.items = .publish p :: rest)
    (hqos : p.qos = .atMostOnce) : Attempts s w (.publish (p.toPublish none))
  | numbered {p : Publication} {parked : Bool} (hphase : w.phase = .reserving p parked) :
    Attempts s w (.publish (p.toPublish (some s.window.freshId)))

theorem encode_of_lost_put {p : Packet} {s : Session} {left : Option (List Redelivery)}
    (h : (w.put s p left).lost = true) : ∀ bytes, p.encode w.link.level ≠ .ok bytes := by
  intro bytes hbytes
  rw [put, hbytes] at h
  cases h

theorem encode_of_lost_begin {item : Outgoing} {rest : List Outgoing} {s' : Session}
    (hitems : s.outbox.items = item :: rest) (h : (w.begin s' item).lost = true) :
    ∃ p, w.Attempts s p ∧ ∀ bytes, p.encode w.link.level ≠ .ok bytes := by
  cases item with
  | control bytes => cases h
  | publish p =>
    dsimp only [begin] at h
    split at h
    · cases h
    split at h
    · next hqos => exact ⟨_, .plain hitems hqos, encode_of_lost_put h⟩
    · cases h

theorem lost_of_write {rest : Bytes} {size room : Nat} {left : Option (List Redelivery)}
    (hroom : env.room = some room) (h : w.write env s rest size left = some turn) :
    turn.lost = false := by
  unfold write at h
  dsimp only at h
  rw [hroom] at h
  split at h
  · split at h
    · next heq => cases heq
    · rw [(blocked_eq_some h).2]
      rfl
    · cases h
      split <;> rfl
  · cases h
    split <;> rfl

theorem lost_of_flush {room : Nat} (hroom : env.room = some room)
    (h : w.flush env s = some turn) : turn.lost = false := by
  unfold flush at h
  rw [hroom] at h
  split at h
  · cases h
    rfl
  · split at h
    · next heq => cases heq
    · rw [(blocked_eq_some h).2]
      rfl
    · cases h
      rfl

/-- A writer fails when the transport takes no more, or when it has a packet to encode that has no
encoding. -/
theorem room_of_lost (h : w.step env s = some turn) (hlost : turn.lost = true) :
    env.room = none ∨ ∃ p, w.Attempts s p ∧ ∀ bytes, p.encode w.link.level ≠ .ok bytes := by
  cases acts_of_step h with
  | resend hphase => exact .inr ⟨_, .again hphase, encode_of_lost_put hlost⟩
  | take _ hnext =>
    obtain ⟨rest, hitems, rfl⟩ := Outbox.next?_eq_some hnext
    exact .inr (encode_of_lost_begin hitems hlost)
  | reserve hphase hreserve =>
    obtain ⟨-, -, rfl⟩ := Session.reserve?_eq_some hreserve
    exact .inr ⟨_, .numbered hphase, encode_of_lost_put hlost⟩
  -- In these phases the packet is encoded already, and only the transport can fail.
  | lose hphase =>
    cases hroom : env.room with
    | none => exact .inl rfl
    | some room =>
      unfold step at h
      cases hw : w.phase with
      | writing rest size left =>
        rw [hw] at h
        cases lost_of_write hroom h
      | flushing =>
        rw [hw] at h
        cases lost_of_flush hroom h
      | _ =>
        rw [hw] at hphase
        cases hphase
  | _ => cases hlost

/-- All that a writer may have to encode has an encoding, so it fails for the transport only. -/
theorem room_of_laden (hs : s.Laden) (hw : w.phase.Laden)
    (h : w.step env s = some turn) (hlost : turn.lost = true) : env.room = none := by
  have hattempts : ∀ p, w.Attempts s p → p.Travels w.link.level := by
    rintro p (@⟨r, left, hphase⟩ | @⟨p, rest, hitems, hqos⟩ | @⟨p, parked, hphase⟩)
    · exact (hw.left r (by rw [hphase]; exact List.mem_cons_self)).travels _
    · exact (hs.queued p (by rw [hitems]; exact List.mem_cons_self)).travels_plain hqos _
    · have hp : p.Tracked := hw.hand p (by rw [hphase]; exact List.mem_singleton_self p)
      exact hp.travels p.dup (Window.freshId_ne_zero hs.window.numbered.next) _
  refine (room_of_lost h hlost).resolve_right ?_
  rintro ⟨p, hp, hnone⟩
  obtain ⟨bytes, hbytes, -⟩ := hattempts p hp
  exact hnone bytes hbytes

end Writer

end MqttBroker
