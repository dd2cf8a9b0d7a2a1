import MqttBroker.Proofs.Session.Order
/-!
How large a PUBLISH a connection writes. The limit is the present client's and is looked at as a
message comes off the outbox; what the window holds when the connection comes is sent again whatever
its size.
-/

namespace MqttBroker

def isPublish : Bytes → Bool
  | [] => false
  | first :: _ => first.toNat / 16 = Kind.publish.code

theorem isPublish_encode {p : Packet} {level : Level} {frame : Bytes}
    (h : p.encode level = .ok frame) : isPublish frame = true ↔ p.kind = .publish := by
  obtain ⟨content, -, -, -, rfl⟩ := Packet.encode_eq_ok.1 h
  have hflags := p.flags_lt
  have hkind : (16 * p.kind.code + p.flags) / 16 = p.kind.code := by omega
  simp only [isPublish, Packet.toNat_firstByte, hkind]
  cases p <;> simp [Packet.kind, Kind.code]

theorem isPublish_control {bytes : Bytes} (h : Outgoing.IsControlPacket bytes) :
    isPublish bytes = false := by
  obtain ⟨p, level, hkind, hbytes⟩ := h
  exact Bool.eq_false_iff.2 fun hpublish => hkind ((isPublish_encode hbytes).1 hpublish)

namespace Publication

/-- The message as a packet. QoS 0 goes without the identifier. -/
def packet (p : Publication) (id : UInt16) : Packet :=
  .publish (p.toPublish (if p.qos = .atMostOnce then none else some id))

/-- Every identifier takes two bytes. -/
theorem encodedLength_packet (p : Publication) (id id' : UInt16) (level : Level) :
    (p.packet id).encodedLength level = (p.packet id').encodedLength level := by
  have hremaining : (p.packet id).remainingLength level = (p.packet id').remainingLength level :=
    rfl
  rw [Packet.encodedLength, Packet.encodedLength, hremaining]

end Publication

namespace Writer

variable {w : Writer} {p : Publication} {most : Nat}

/-- Whichever identifier the message is to get. -/
theorem exceedsClientLimit_eq (w : Writer) (p : Publication) (id : UInt16)
    (hmost : w.link.maxOutboundPacket = some most) :
    w.exceedsClientLimit p = decide (most < (p.packet id).encodedLength w.link.level) := by
  rw [p.encodedLength_packet id 1, exceedsClientLimit, hmost]
  rfl

/-- A message that is not too large for the client is written as it is. -/
theorem length_le_of_takes {frame : Bytes} (htakes : w.takes (.publish p) = true)
    (hmost : w.link.maxOutboundPacket = some most)
    (hwritten : (Due.item (.publish p)).IsWrittenAs w.link.level frame) : frame.length ≤ most := by
  obtain ⟨id, hid, hframe⟩ := hwritten
  have hpacket : Packet.publish (p.toPublish id) = p.packet (id.getD 0) := by
    cases id with
    | none => rw [Publication.packet, if_pos (hid.1 rfl)]
    | some id =>
      rw [Publication.packet, if_neg fun hqos => Option.some_ne_none id (hid.2 hqos)]
      rfl
  rw [hpacket] at hframe
  rw [takes, exceedsClientLimit_eq w p _ hmost] at htakes
  rw [Packet.length_of_encode hframe]
  simpa using htakes

namespace IsInOrder

variable {items : List Outgoing} {a : Course} {resent later : List InFlight}
  {taken written : List Outgoing} {frame : Bytes}

theorem exists_due (h : w.IsInOrder items a resent later taken written) (hframe : frame ∈ a.frames) :
    ∃ d ∈ resent.map Due.again ++ written.map Due.item, d.IsWrittenAs w.link.level frame := by
  have hframes := h.frames
  generalize resent.map Due.again ++ written.map Due.item = due at hframes ⊢
  generalize a.frames = frames at hframes hframe
  induction hframes with
  | nil => cases hframe
  | @cons d _ due _ hd _ ih =>
    rcases List.mem_cons.1 hframe with rfl | hframe
    · exact ⟨d, List.mem_cons_self .., hd⟩
    · obtain ⟨d', hd', hwritten⟩ := ih hframe
      exact ⟨d', List.mem_cons_of_mem _ hd', hwritten⟩

/-- A PUBLISH that the client does not take is one that is sent again. -/
theorem length_le_or_again (h : w.IsInOrder items a resent later taken written)
    (hcontrols : ∀ bytes, .control bytes ∈ a.queued → Outgoing.IsControlPacket bytes)
    (hmost : w.link.maxOutboundPacket = some most) (hframe : frame ∈ a.frames)
    (hpublish : isPublish frame = true) :
    frame.length ≤ most ∨ ∃ e ∈ a.resumed, e.again.packet.encode w.link.level = .ok frame := by
  obtain ⟨d, hd, hwritten⟩ := h.exists_due hframe
  rcases List.mem_append.1 hd with hd | hd
  · obtain ⟨e, he, rfl⟩ := List.mem_map.1 hd
    exact .inr ⟨e, h.resumed ▸ List.mem_append_left _ he, hwritten⟩
  · obtain ⟨item, hitem, rfl⟩ := List.mem_map.1 hd
    obtain ⟨htaken, htakes⟩ := List.mem_filter.1 (h.kept.subset hitem)
    cases item with
    | control bytes =>
      cases hwritten
      have hcontrol := isPublish_control (hcontrols frame (h.queued ▸ List.mem_append_left _ htaken))
      exact absurd (hcontrol.symm.trans hpublish) Bool.false_ne_true
    | publish p => exact .inl (length_le_of_takes htakes hmost hwritten)

end IsInOrder

end Writer

/-- A record of what a connection's writer has written, and of the messages it has taken off the
outbox neither to write them nor to keep them for a slot. -/
structure Sieve where
  course : Course := {}
  skipped : List Publication := []
deriving DecidableEq

namespace Sieve

/-- What a step of the writer leaves out. -/
def skip (w : Writer) (s : Session) (turn : Writer.Turn) : List Publication :=
  match s.outbox.items with
  | .publish p :: rest =>
    if turn.session.outbox.items = rest ∧ turn.writer.phase.hand = [] ∧
      w.phase.begun turn.writer.phase = none then [p] else []
  | _ => []

def note (t : Tenancy) (move : Tenancy.Move) (t' : Tenancy) (a : Sieve) : Sieve where
  course := a.course.note t move t'
  skipped := match move with
    | .arrive _ => []
    | .write now room look => match t.turn? now room look with
      | some (w, turn) => a.skipped ++ skip w t.session turn
      | none => a.skipped
    | _ => a.skipped

/-- What is left out cannot be written or is larger than the client takes. -/
theorem lt_length_of_mem_skip {env : Writer.Surroundings} {s : Session} {w : Writer}
    {turn : Writer.Turn} {p : Publication} (htraffic : Writer.Traffic env s w turn)
    (hp : p ∈ skip w s turn) {most : Nat} (hmost : w.link.maxOutboundPacket = some most)
    {id : UInt16} {frame : Bytes} (hframe : (p.packet id).encode w.link.level = .ok frame) :
    most < frame.length := by
  unfold skip at hp
  split at hp
  case h_2 => cases hp
  next q rest hitems =>
  obtain ⟨⟨hrest, hhand, hbegun⟩, hp⟩ := List.mem_ite_nil_right.1 hp
  obtain rfl := List.mem_singleton.1 hp
  have hlength : turn.session.outbox.items.length + 1 = s.outbox.items.length := by
    rw [hrest, hitems]
    rfl
  cases htraffic with
  | idle hsame =>
    rw [hsame] at hlength
    omega
  | lookUp _ hsession | stop hsession | resend _ hsession | forsake _ _ _ hsession =>
    rw [hsession] at hlength
    omega
  | control _ hitems' => cases hitems.symm.trans hitems'
  | transient hphase hitems' _ hqos hstarts =>
    cases hitems.symm.trans hitems'
    rcases hstarts with ⟨bytes, -, hnext⟩ | ⟨-, -, hnone⟩
    · rw [hphase, hnext] at hbegun
      cases hbegun
    · rw [Publication.packet, if_pos hqos] at hframe
      exact absurd hframe (hnone frame)
  | drop _ hitems' _ hlimit =>
    cases hitems.symm.trans hitems'
    rw [Writer.exceedsClientLimit_eq w p id hmost, ← Packet.length_of_encode hframe] at hlimit
    exact of_decide_eq_true hlimit
  | hold _ _ _ _ _ hnext =>
    rw [hnext] at hhand
    cases hhand
  | giveBack _ _ hsession =>
    rw [hsession] at hlength
    change s.outbox.items.length + 1 + 1 = _ at hlength
    omega
  | reserve _ hreserve hsession =>
    obtain ⟨-, hs', -⟩ := Session.reserve?_eq_some hreserve
    rw [hsession, hs'] at hlength
    change s.outbox.items.length + 1 = _ at hlength
    omega

end Sieve

namespace Tenancy

variable {t t' : Tenancy} {move : Move} {x : Tenant} {a : Sieve} {most : Nat}

theorem link_of_answer {x' : Tenant} {p : Packet} (h : (t.answer x p).tenant = some x') :
    x'.link = x.link := by
  rcases t.answer_cases x p with ⟨reason, heq⟩ | ⟨bytes, -, heq⟩
  · rw [heq] at h
    cases h
    rfl
  · rw [heq] at h
    cases h
    rfl

/-- What the record says of the connection that uses the session. -/
structure Sized (t : Tenancy) (a : Sieve) : Prop where
  controls : ∀ bytes, .control bytes ∈ a.course.queued → Outgoing.IsControlPacket bytes
  skipped : ∀ x most id frame, t.tenant = some x → x.link.maxOutboundPacket = some most →
    ∀ p ∈ a.skipped, (p.packet id).encode x.link.level = .ok frame → most < frame.length

namespace Sized

theorem of_skipped (h : Sized t a) {a' : Sieve}
    (hcontrols : ∀ bytes, .control bytes ∈ a'.course.queued → Outgoing.IsControlPacket bytes)
    (hskipped : a'.skipped = a.skipped)
    (hlink : ∀ x', t'.tenant = some x' → ∃ x, t.tenant = some x ∧ x'.link = x.link) :
    Sized t' a' where
  controls := hcontrols
  skipped x' most id frame hx' hmost p hp hframe := by
    obtain ⟨x, hx, hsame⟩ := hlink x' hx'
    rw [hsame] at hmost hframe
    exact h.skipped x most id frame hx hmost p (hskipped ▸ hp) hframe

theorem controls_of_appended (h : Sized t a) (hregular : t'.Regular) (n : Nat) :
    ∀ bytes, .control bytes ∈ a.course.queued ++ t'.session.outbox.items.drop n →
      Outgoing.IsControlPacket bytes := by
  intro bytes hmem
  rcases List.mem_append.1 hmem with hold | hnew
  · exact h.controls bytes hold
  · exact hregular.controls bytes (List.mem_of_mem_drop hnew)

theorem step (h : Sized t a) (hregular : t.Regular) (hstep : t.step move = some t') :
    Sized t' (a.note t move t') := by
  have hregular' := hregular.step hstep
  have hcontrols := h.controls_of_appended hregular' t.session.outbox.items.length
  cases goes_of_step hstep with
  | arrive => exact ⟨hregular.controls, fun _ _ _ _ _ _ _ hp => absurd hp List.not_mem_nil⟩
  | activate hx =>
    refine h.of_skipped hcontrols rfl ?_
    rintro _ ⟨⟩
    exact ⟨_, hx, rfl⟩
  | close =>
    refine h.of_skipped hcontrols rfl fun x' hx' => ?_
    obtain ⟨x, hx, rfl⟩ := Option.map_eq_some_iff.1 hx'
    exact ⟨x, hx, rfl⟩
  | offer | ack | abandon | complete | adjust =>
    exact h.of_skipped hcontrols rfl fun x hx => ⟨x, hx, rfl⟩
  | answer hx => exact h.of_skipped hcontrols rfl fun x' hx' => ⟨_, hx, link_of_answer hx'⟩
  | @receive id x hx =>
    refine h.of_skipped hcontrols rfl fun x' hx' => ?_
    rcases t.receive_cases x id with ⟨-, heq⟩ | ⟨window, -, heq⟩
    · exact ⟨x', heq ▸ hx', rfl⟩
    · exact ⟨x, hx, link_of_answer (heq ▸ hx')⟩
  | write =>
    obtain ⟨x, w, turn, hx, hw, hturn, hacts, ht'⟩ := exists_turn?_of_write hstep
    have hlink : w.link = x.link := hregular.linked x w hx hw
    simp only [Sieve.note, Course.note, hturn, ht']
    constructor
    case controls => exact h.controls
    case skipped =>
      rintro _ most id frame ⟨⟩ hmost p hp hframe
      rw [Tenant.after_link] at hmost hframe
      rcases List.mem_append.1 hp with hold | hnew
      · exact h.skipped x most id frame hx hmost p hold hframe
      · rw [← hlink] at hmost hframe
        exact Sieve.lt_length_of_mem_skip (Writer.traffic_of_acts hacts) hnew hmost hframe
  | leave => exact ⟨hcontrols, by rintro _ _ _ _ ⟨⟩⟩

end Sized

theorem sized_of_run {clientId : String} {capacity : Nat} {moves : List Move}
    (h : run Sieve.note moves (fresh clientId capacity, {}) = some (t, a)) :
    t.Regular ∧ t.Ordered a.course ∧ t.Sized a :=
  run_induction (I := fun y : Tenancy × Sieve =>
      y.1.Regular ∧ y.1.Ordered y.2.course ∧ y.1.Sized y.2)
    (fun _ _ _ _ hstep ⟨hregular, hordered, hsized⟩ =>
      ⟨hregular.step hstep, hordered.step hregular hstep, hsized.step hregular hstep⟩) h
    ⟨.fresh clientId capacity, .of_free rfl, nofun, by rintro _ _ _ _ ⟨⟩⟩

/-- A PUBLISH that is written is no larger than the client takes, unless it is sent again from the
window that the connection came to. What is taken off the outbox and not written is larger than the
client takes, whichever identifier it would have got. -/
theorem publish_within_limit {clientId : String} {capacity : Nat} {moves : List Move}
    (h : run Sieve.note moves (fresh clientId capacity, {}) = some (t, a))
    (hx : t.tenant = some x) (hmost : x.link.maxOutboundPacket = some most) :
    (∀ frame ∈ a.course.frames, isPublish frame = true → frame.length ≤ most ∨
      ∃ e ∈ a.course.resumed, e.again.packet.encode x.link.level = .ok frame) ∧
    ∀ p ∈ a.skipped, ∀ id frame, (p.packet id).encode x.link.level = .ok frame →
      most < frame.length := by
  obtain ⟨hregular, hordered, hsized⟩ := sized_of_run h
  refine ⟨fun frame hframe hpublish => ?_, fun p hp id frame hframe => ?_⟩
  · cases hw : x.writer with
    | none =>
      have hidle := hordered.idle (by rw [hx, Option.map_some, hw])
      rw [hidle.1] at hframe
      cases hframe
    | some w =>
      obtain ⟨resent, later, taken, written, hsequence⟩ :=
        hordered.busy w (by rw [hx, Option.map_some, hw])
      rw [← hregular.linked x w hx hw] at hmost ⊢
      exact hsequence.toIsInOrder.length_le_or_again hsized.controls hmost hframe hpublish
  · exact hsized.skipped x most id frame hx hmost p hp hframe

/-- A 5.0 client that keeps its session, and may say how large a packet it takes. -/
def sizedLink (most? : Option UInt32) : Link :=
  Link.negotiate {} { level := .v5, clientId := "a" }
    { protocolName := [77, 81, 84, 84]
      protocolLevel := 5
      cleanSession := false
      keepAlive := 0
      properties := ⟨.sessionExpiryInterval, (60 : UInt32)⟩ ::
        (most?.map fun most => ⟨.maximumPacketSize, most⟩).toList
      clientId := [97]
      will := none
      username := none
      password := none }

/-- A message goes to a client that takes packets of any size. The client does not answer, and comes
back as one that takes eight bytes at most, for this message and another one. -/
def shrunkMoves : List Move :=
  [subscribing .atLeastOnce, .arrive (sizedLink none), .activate 16384,
    .offer (letter 49 .atLeastOnce)] ++ writing 7 ++
    [.close .connectionLost] ++ writing 4 ++
    [.leave true, .offer (letter 50 .atLeastOnce), .arrive (sizedLink (some 8)),
      .activate 16384] ++ writing 10

theorem run_shrunkMoves :
    ∃ t a x, run Sieve.note shrunkMoves (fresh "a" 1000, {}) = some (t, a) ∧
      t.tenant = some x ∧ x.link.maxOutboundPacket = some 8 ∧
      a.course.frames = [[58, 7, 0, 1, 97, 0, 1, 0, 49]] ∧
      a.skipped = [{ topic := [97], payload := [50], qos := .atLeastOnce }] := by
  have hrun : (run Sieve.note shrunkMoves (fresh "a" 1000, {})).map (fun y =>
      (y.1.tenant.map (·.link.maxOutboundPacket), y.2.course.frames, y.2.skipped)) =
        some (some (some 8), [[58, 7, 0, 1, 97, 0, 1, 0, 49]],
          [{ topic := [97], payload := [50], qos := .atLeastOnce }]) := by
    decide +kernel
  obtain ⟨⟨t, a⟩, hrun, heq⟩ := Option.map_eq_some_iff.1 hrun
  obtain ⟨hmost, heq⟩ := Prod.mk.inj heq
  obtain ⟨hframes, hskipped⟩ := Prod.mk.inj heq
  obtain ⟨x, hx, hmost⟩ := Option.map_eq_some_iff.1 hmost
  exact ⟨t, a, x, hrun, hx, hmost, hframes, hskipped⟩

/-- The message from before is sent again, with nine bytes. The other one is as large, and is left
out. -/
theorem publish_within_limit_shrunk :
    ∃ t a x, run Sieve.note shrunkMoves (fresh "a" 1000, {}) = some (t, a) ∧
      t.tenant = some x ∧ x.link.maxOutboundPacket = some 8 ∧
      a.course.frames = [[58, 7, 0, 1, 97, 0, 1, 0, 49]] ∧
      a.skipped = [{ topic := [97], payload := [50], qos := .atLeastOnce }] ∧
      (∀ frame ∈ a.course.frames, isPublish frame = true → frame.length ≤ 8 ∨
        ∃ e ∈ a.course.resumed, e.again.packet.encode x.link.level = .ok frame) ∧
      ∀ p ∈ a.skipped, ∀ id frame, (p.packet id).encode x.link.level = .ok frame →
        8 < frame.length := by
  obtain ⟨t, a, x, hrun, hx, hmost, hframes, hskipped⟩ := run_shrunkMoves
  exact ⟨t, a, x, hrun, hx, hmost, hframes, hskipped, publish_within_limit hrun hx hmost⟩

/-- What is sent again can be larger than the client takes. -/
theorem not_publish_le_limit :
    ¬ ∀ (clientId : String) (capacity : Nat) (moves : List Move) (t : Tenancy) (a : Sieve)
        (x : Tenant) (most : Nat),
      run Sieve.note moves (fresh clientId capacity, {}) = some (t, a) → t.tenant = some x →
      x.link.maxOutboundPacket = some most →
      (∀ frame ∈ a.course.frames, isPublish frame = true → frame.length ≤ most) ∧
      ∀ p ∈ a.skipped, ∀ id frame, (p.packet id).encode x.link.level = .ok frame →
        most < frame.length := by
  intro hclaim
  obtain ⟨t, a, x, hrun, hx, hmost, hframes, -⟩ := run_shrunkMoves
  have hle := (hclaim "a" 1000 shrunkMoves t a x 8 hrun hx hmost).1
    [58, 7, 0, 1, 97, 0, 1, 0, 49] (hframes ▸ List.mem_singleton_self _) (by decide)
  exact absurd hle (by decide)

end Tenancy

end MqttBroker
