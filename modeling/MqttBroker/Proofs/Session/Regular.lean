import MqttBroker.Proofs.Session.InFlight
import MqttBroker.Proofs.Session.Tenancy
/-!
What holds of a session and of the connection that uses it at all times. Every move keeps it, so it
may be assumed wherever something is proved about the moves of a session.
-/

namespace MqttBroker

/-- The bytes of a control packet. -/
def Outgoing.IsControlPacket (bytes : Bytes) : Prop :=
  ∃ p level, p.kind ≠ .publish ∧ Packet.encode p level = .ok bytes

/-- Of the packets that are queued whole, a client answers PUBREL only. -/
theorem Outgoing.IsControlPacket.eq_pubComp {bytes : Bytes} {a : Answer}
    (h : IsControlPacket bytes) (ha : Answer.toFrame bytes = some a) : ∃ id, a = .pubComp id := by
  obtain ⟨q, level, hkind, hencode⟩ := h
  rw [Answer.toFrame_encode hencode] at ha
  cases q with
  | publish => exact absurd rfl hkind
  | pubRel r =>
    cases ha
    exact ⟨_, rfl⟩
  | _ => cases ha

namespace Window

theorem dup_of_mem_redelivery {w : Window} {id : UInt16} {p : Publication}
    (h : .publish id p ∈ w.redelivery) : p.dup = true := by
  obtain ⟨e, -, heq⟩ := List.mem_map.1 h
  split at heq
  · cases heq
    rfl
  · cases heq

end Window

namespace Tenant

theorem isSome_reason_close (x : Tenant) (reason : CloseReason) :
    (x.close reason).reason.isSome = true := by
  unfold close
  cases x.reason <;> rfl

theorem isSome_reason_after (x : Tenant) (turn : Writer.Turn)
    (h : turn.lost = true ∨ x.reason.isSome = true) : (x.after turn).reason.isSome = true := by
  unfold after
  dsimp only
  split
  · exact isSome_reason_close _ _
  · next hkept => exact h.resolve_left hkept

end Tenant

namespace Tenancy

structure Regular (t : Tenancy) : Prop where
  window : t.session.window.Sound
  held : ∀ p ∈ t.hand, p.qos ≠ .atMostOnce
  repeats : ∀ id p, .publish id p ∈ t.left → p.dup = true
  controls : ∀ bytes, .control bytes ∈ t.session.outbox.items → Outgoing.IsControlPacket bytes
  servable : ∀ x, t.tenant = some x → x.link.IsServable
  linked : ∀ x w, t.tenant = some x → x.writer = some w → w.link = x.link
  /-- A writer comes to its end only when the connection does. -/
  ending : ∀ x w, t.tenant = some x → x.writer = some w → w.phase.isEnding = true →
    x.reason.isSome = true
  /-- A writer that is parked and has no permit has no reason to look again. -/
  parked : ∀ w p, t.writer? = some w → w.phase = .reserving p true →
    t.session.slotFreed.permit = true ∨ w.link.inFlightLimit ≤ t.session.window.size

namespace Regular

variable {t t' : Tenancy} {move : Move} {x : Tenant}

/-- A session that no connection uses. -/
theorem of_free (htenant : t.tenant = none) (hwindow : t.session.window.Sound)
    (hcontrols : ∀ bytes, .control bytes ∈ t.session.outbox.items →
      Outgoing.IsControlPacket bytes) : t.Regular := by
  have hwriter : t.writer? = none := by rw [writer?, htenant]; rfl
  constructor
  case window => exact hwindow
  case held =>
    rw [hand, hwriter]
    exact fun _ hmem => absurd hmem List.not_mem_nil
  case repeats =>
    rw [left, hwriter]
    exact fun _ _ hmem => absurd hmem List.not_mem_nil
  case controls => exact hcontrols
  case servable =>
    rw [htenant]
    rintro _ ⟨⟩
  case linked =>
    rw [htenant]
    rintro _ _ ⟨⟩
  case ending =>
    rw [htenant]
    rintro _ _ ⟨⟩
  case parked =>
    rw [hwriter]
    rintro _ _ ⟨⟩

theorem fresh (clientId : String) (capacity : Nat) : (fresh clientId capacity).Regular :=
  of_free rfl .empty nofun

/-- A connection whose writer, if it has one, has yet to begin. -/
theorem of_idle (htenant : t.tenant = some x) (hlink : x.link.IsServable)
    (hstart : ∀ w, x.writer = some w → w.phase = .starting ∧ w.link = x.link)
    (hwindow : t.session.window.Sound)
    (hcontrols : ∀ bytes, .control bytes ∈ t.session.outbox.items →
      Outgoing.IsControlPacket bytes) : t.Regular := by
  have hwriter := writer?_of_tenant htenant
  have hnone : ∀ {β : Type} {f : Writer.Phase → List β}, f .starting = [] →
      (t.writer?.map fun w => f w.phase).getD [] = [] := by
    intro β f hf
    rw [hwriter]
    cases hw : x.writer with
    | none => rfl
    | some w =>
      rw [Option.map_some, (hstart w hw).1, hf]
      rfl
  constructor
  case window => exact hwindow
  case held =>
    rw [hand, hnone rfl]
    exact fun _ hmem => absurd hmem List.not_mem_nil
  case repeats =>
    rw [left, hnone rfl]
    exact fun _ _ hmem => absurd hmem List.not_mem_nil
  case controls => exact hcontrols
  case servable =>
    rw [htenant]
    rintro _ ⟨⟩
    exact hlink
  case linked =>
    rw [htenant]
    rintro _ w ⟨⟩ hw
    exact (hstart w hw).2
  case ending =>
    rw [htenant]
    rintro _ w ⟨⟩ hw hend
    rw [(hstart w hw).1] at hend
    cases hend
  case parked =>
    rw [hwriter]
    intro w p hw hphase
    rw [(hstart w hw).1] at hphase
    cases hphase

/-- A move of the session alone. -/
theorem of_tenant (h : t.Regular) (htenant : t'.tenant = t.tenant)
    (hwindow : t'.session.window.Sound)
    (hcontrols : ∀ bytes, .control bytes ∈ t'.session.outbox.items →
      .control bytes ∈ t.session.outbox.items ∨ Outgoing.IsControlPacket bytes)
    (hparked : t'.session.slotFreed.permit = true ∨
      t'.session.slotFreed = t.session.slotFreed ∧ t.session.window.size ≤ t'.session.window.size) :
    t'.Regular := by
  have hwriter : t'.writer? = t.writer? := by rw [writer?, htenant, writer?]
  constructor
  case window => exact hwindow
  case held =>
    rw [hand_congr hwriter]
    exact h.held
  case repeats =>
    rw [left_congr hwriter]
    exact h.repeats
  case controls =>
    exact fun bytes hmem => (hcontrols bytes hmem).elim (h.controls bytes) id
  case servable =>
    rw [htenant]
    exact h.servable
  case linked =>
    rw [htenant]
    exact h.linked
  case ending =>
    rw [htenant]
    exact h.ending
  case parked =>
    rw [hwriter]
    intro w p hw hphase
    rcases hparked with hpermit | ⟨hsame, hle⟩
    · exact .inl hpermit
    · rw [hsame]
      exact (h.parked w p hw hphase).imp_right fun hfull => Nat.le_trans hfull hle

theorem settle (h : t.Regular) {p : InFlight → Bool} {window? : Option Window}
    (hremoves : t.session.window.Removes p window?) :
    Regular { t with session := (t.session.settle window?).1 } := by
  rcases t.session.settle_cases window? with ⟨-, heq⟩ | ⟨window, hsome, heq⟩
  · rw [heq]
    exact h
  · rw [heq]
    exact h.of_tenant rfl (h.window.of_removes hremoves hsome) (fun _ => .inl) (.inl rfl)

theorem close (h : t.Regular) (hx : t.tenant = some x) (reason : CloseReason) :
    Regular { t with tenant := some (x.close reason) } := by
  have hwriter : writer? { t with tenant := some (x.close reason) } = t.writer? :=
    writer?_congr hx rfl rfl
  constructor
  case window => exact h.window
  case held =>
    rw [hand_congr hwriter]
    exact h.held
  case repeats =>
    rw [left_congr hwriter]
    exact h.repeats
  case controls => exact h.controls
  case servable =>
    rintro _ ⟨⟩
    exact h.servable x hx
  case linked =>
    rintro _ w ⟨⟩ hw
    exact h.linked x w hx hw
  case ending =>
    rintro _ w ⟨⟩ _ _
    exact x.isSome_reason_close reason
  case parked =>
    rw [hwriter]
    exact h.parked

theorem answer (h : t.Regular) (hx : t.tenant = some x) {p : Packet} (hkind : p.kind ≠ .publish) :
    (t.answer x p).Regular := by
  rcases t.answer_cases x p with ⟨reason, heq⟩ | ⟨bytes, hbytes, heq⟩
  · rw [heq]
    exact h.close hx reason
  · rw [heq]
    refine h.of_tenant hx.symm h.window (fun bytes' hmem => ?_) (.inr ⟨rfl, Nat.le_refl _⟩)
    rcases List.mem_append.1 hmem with hold | hnew
    · exact .inl hold
    · cases List.mem_singleton.1 hnew
      exact .inr ⟨p, x.link.level, hkind, hbytes⟩

theorem receive (h : t.Regular) (hx : t.tenant = some x) (id : UInt16) :
    (t.receive x id).Regular := by
  rcases t.receive_cases x id with ⟨-, heq⟩ | ⟨window, hwindow, heq⟩
  · rw [heq]
    exact h
  · have hsize := Window.size_received hwindow
    have hsame : Regular { t with session := { t.session with window } } :=
      h.of_tenant rfl (h.window.received hwindow) (fun _ => .inl)
        (.inr ⟨rfl, Nat.le_of_eq hsize.symm⟩)
    rw [heq]
    exact hsame.answer hx nofun

theorem offer (h : t.Regular) (m : Message) :
    Regular { t with session := (t.session.offer m).1 } := by
  rcases t.session.offer_cases m with heq | heq | ⟨qos, heq⟩
  · rw [heq]
    exact h
  · rw [heq]
    exact h
  · rw [heq]
    refine h.of_tenant rfl h.window (fun bytes hmem => .inl ?_) (.inr ⟨rfl, Nat.le_refl _⟩)
    simpa using hmem

theorem write {env : Writer.Surroundings} {w : Writer} {turn : Writer.Turn} (h : t.Regular)
    (hx : t.tenant = some x) (hw : x.writer = some w) (hreason : env.reason = x.reason)
    (hacts : Writer.Acts env t.session w turn) :
    Regular { session := turn.session, tenant := some (x.after turn) } := by
  have htraffic := Writer.traffic_of_acts hacts
  have hwriter : t.writer? = some w := (writer?_of_tenant hx).trans hw
  have hwriter' : writer? { session := turn.session, tenant := some (x.after turn) } =
      some turn.writer := x.after_writer turn
  have hheld : ∀ p ∈ w.phase.hand, p.qos ≠ .atMostOnce := by
    have hheld := h.held
    rw [hand, hwriter] at hheld
    exact hheld
  constructor
  case window =>
    have hlimit := (h.servable x hx).2
    rw [← h.linked x w hx hw] at hlimit
    exact htraffic.window h.window hlimit hheld
  case held =>
    rw [hand, hwriter']
    exact htraffic.held hheld
  case repeats =>
    rw [left, hwriter']
    intro id p hmem
    rcases htraffic.left_subset with hsub | hlook
    · refine h.repeats id p ?_
      rw [left, hwriter]
      exact hsub hmem
    · rw [Option.map_some, Option.getD_some, hlook] at hmem
      exact Window.dup_of_mem_redelivery hmem
  case controls =>
    exact fun bytes hmem => h.controls bytes (htraffic.controls hmem)
  case servable =>
    rintro _ ⟨⟩
    rw [Tenant.after_link]
    exact h.servable x hx
  case linked =>
    rintro _ w' ⟨⟩ hw'
    rw [Tenant.after_writer] at hw'
    cases hw'
    rw [Tenant.after_link, hacts.link_eq]
    exact h.linked x w hx hw
  case ending =>
    rintro _ w' ⟨⟩ hw' hend
    rw [Tenant.after_writer] at hw'
    cases hw'
    refine x.isSome_reason_after turn ?_
    rcases htraffic.ending hend with hlost | hasked | hbefore
    · exact .inl hlost
    · exact .inr (hreason ▸ hasked)
    · exact .inr (h.ending x w hx hw hbefore)
  case parked =>
    intro w' p hw' hphase
    rw [hwriter'] at hw'
    cases hw'
    obtain ⟨hsession, hfull⟩ := hacts.parked hphase
    rw [hsession, hacts.link_eq]
    exact .inr hfull

theorem step (h : t.Regular) (hstep : t.step move = some t') : t'.Regular := by
  cases goes_of_step hstep with
  | arrive _ hlink => exact .of_idle rfl hlink (by rintro _ ⟨⟩) h.window h.controls
  | @activate _ x hx =>
    refine .of_idle rfl (h.servable x hx) ?_ h.window h.controls
    rintro _ ⟨⟩
    exact ⟨rfl, rfl⟩
  | @close reason =>
    cases hx : t.tenant with
    | none => exact h.of_tenant hx.symm h.window (fun _ => .inl) (.inr ⟨rfl, Nat.le_refl _⟩)
    | some x => exact h.close hx reason
  | offer => exact h.offer _
  | answer hx hkind => exact h.answer hx hkind
  | ack => exact h.settle (t.session.window.removes_ack? _)
  | receive hx => exact h.receive hx _
  | abandon => exact h.settle (t.session.window.removes_abandon? _)
  | complete => exact h.settle (t.session.window.removes_complete? _)
  | adjust => exact h.of_tenant rfl h.window (fun _ => .inl) (.inr ⟨rfl, Nat.le_refl _⟩)
  | write hx hw hacts => exact h.write hx hw rfl hacts
  | @leave kept =>
    refine .of_free rfl h.window fun bytes hmem => h.controls bytes ?_
    cases kept with
    | false => exact hmem
    | true => exact (List.mem_filter.1 hmem).1

end Regular

theorem regular_of_run {α : Type} {note : Tenancy → Move → Tenancy → α → α} {clientId : String}
    {capacity : Nat} {moves : List Move} {t : Tenancy} {a a' : α}
    (h : run note moves (fresh clientId capacity, a) = some (t, a')) : t.Regular :=
  run_induction (I := fun x => x.1.Regular) (fun _ _ _ _ hstep hregular => hregular.step hstep) h
    (Regular.fresh clientId capacity)

end Tenancy

end MqttBroker
