import MqttBroker.Proofs.Session.Tenancy
/-!
How much can wait for a client. A message that goes back to the outbox is put there whatever the
capacity, again by every connection that cannot send it; but it was taken from there, so the bound is
on the outbox and the writer's hand together.
-/

namespace MqttBroker

namespace Outbox

variable {o o' : Outbox} {item : Outgoing}

theorem enqueue?_eq_none_iff : o.enqueue? item = none ↔ o.capacity ≤ o.size := by
  rw [enqueue?, Option.map_eq_none_iff, push?, size]
  split
  · next hfull => simp [hfull]
  · next hroom => simp [hroom]

theorem enqueue?_eq_some (h : o.enqueue? item = some o') :
    o.size < o.capacity ∧ o'.capacity = o.capacity ∧ o'.items = o.items ++ [item] := by
  obtain ⟨o₁, hpush, rfl⟩ := Option.map_eq_some_iff.1 h
  obtain ⟨hroom, hpush⟩ := Option.ite_none_left_eq_some.1 hpush
  cases hpush
  exact ⟨Nat.lt_of_not_le hroom, rfl, rfl⟩

theorem size_discardTransient_le (o : Outbox) : o.discardTransient.size ≤ o.size :=
  List.length_filter_le ..

end Outbox

namespace Writer

variable {env : Surroundings} {s : Session} {w : Writer} {turn : Turn}

theorem Phase.length_hand_le (phase : Phase) : phase.hand.length ≤ 1 := by
  cases phase <;> simp [hand]

/-- A writer takes items from the outbox and puts back what it holds; it has none of its own. -/
theorem Traffic.size_add_hand_le (h : Traffic env s w turn) :
    turn.session.outbox.size + turn.writer.phase.hand.length ≤
      s.outbox.size + w.phase.hand.length := by
  -- One item fewer in the outbox makes room for whatever the writer holds then.
  have htaken : ∀ {item rest}, s.outbox.items = item :: rest → turn.session = behind s rest →
      turn.session.outbox.size + turn.writer.phase.hand.length ≤
        s.outbox.size + w.phase.hand.length := by
    intro item rest hitems hsession
    have hsize : s.outbox.size = turn.session.outbox.size + 1 := by
      rw [hsession]
      exact congrArg List.length hitems
    have hhand := turn.writer.phase.length_hand_le
    omega
  have hnothing : turn.session.outbox = s.outbox → turn.writer.phase.hand = [] →
      turn.session.outbox.size + turn.writer.phase.hand.length ≤
        s.outbox.size + w.phase.hand.length := by
    intro houtbox hhand
    rw [houtbox, hhand]
    exact Nat.le_add_right _ _
  cases h with
  | idle hitems _ hphase =>
    rw [Outbox.size, hitems, hphase.hand]
    exact Nat.le_refl _
  | lookUp _ hsession hnext => exact hnothing (congrArg _ hsession) (by rw [hnext]; rfl)
  | stop hsession _ _ hnext | forsake _ _ _ hsession hnext =>
    exact hnothing (congrArg _ hsession) (Phase.hand_of_isEnding hnext)
  | resend _ hsession hstarts => exact hnothing (congrArg _ hsession) hstarts.hand
  | control _ hitems hsession | transient _ hitems hsession | drop _ hitems hsession
  | hold _ hitems hsession => exact htaken hitems hsession
  | giveBack hphase _ hsession hnext =>
    rw [hsession, hphase, Phase.hand_of_isEnding hnext]
    exact Nat.le_refl (s.outbox.size + 1)
  | reserve _ hreserve hsession hstarts =>
    obtain ⟨-, rfl, -⟩ := Session.reserve?_eq_some hreserve
    exact hnothing (by rw [hsession]) hstarts.hand

theorem Acts.capacity_eq (h : Acts env s w turn) :
    turn.session.outbox.capacity = s.outbox.capacity := by
  cases h with
  | resend => rw [put_session]
  | wake _ _ hpermit =>
    rw [Outbox.awaken?_eq_some hpermit]
    rfl
  | take _ hnext =>
    obtain ⟨rest, -, rfl⟩ := Outbox.next?_eq_some hnext
    rw [begin_session]
  | wakeReserving _ hpermit =>
    rw [(Session.awaken?_eq_some hpermit).2]
    rfl
  | reserve _ hreserve => rw [put_session, (Session.reserve?_eq_some hreserve).2.1]
  | _ => rfl

end Writer

/-- A message is refused for want of room only, and then nothing changes. -/
theorem Session.offer_outcome (s : Session) (m : Message) :
    s.offer m = (s, .skipped) ∨
      (s.offer m = (s, .full) ∧ s.outbox.capacity ≤ s.outbox.size) ∨
      ∃ item outbox, s.outbox.enqueue? item = some outbox ∧
        s.offer m = ({ s with outbox }, .queued) := by
  unfold offer
  split
  · exact .inl rfl
  · dsimp only
    split
    · exact .inl rfl
    · split
      · next hsome =>
        obtain ⟨outbox, houtbox, rfl⟩ := Option.map_eq_some_iff.1 hsome
        exact .inr (.inr ⟨_, outbox, houtbox, rfl⟩)
      · next hnone =>
        exact .inr (.inl ⟨rfl, Outbox.enqueue?_eq_none_iff.1 (Option.map_eq_none_iff.1 hnone)⟩)

theorem Session.offer_of_full {s : Session} {m : Message} (h : (s.offer m).2 = .full) :
    (s.offer m).1 = s ∧ s.outbox.capacity ≤ s.outbox.size := by
  rcases s.offer_outcome m with heq | ⟨heq, hfull⟩ | ⟨_, _, -, heq⟩
  · rw [heq] at h
    cases h
  · rw [heq]
    exact ⟨rfl, hfull⟩
  · rw [heq] at h
    cases h

namespace Tenancy

variable {t t' : Tenancy} {move : Move} {x : Tenant} {capacity : Nat}

/-- What waits for the client: the items of the outbox and the message in the writer's hand. -/
def backlog (t : Tenancy) : Nat := t.session.outbox.size + t.hand.length

theorem length_hand_le (t : Tenancy) : t.hand.length ≤ 1 := by
  unfold hand
  cases t.writer? with
  | none => exact Nat.zero_le 1
  | some w => exact w.phase.length_hand_le

/-- What a move does to the backlog: nothing more waits, or the outbox had room for one item more. -/
inductive Accrues (t t' : Tenancy) : Prop where
  | keeps (hcapacity : t'.session.outbox.capacity = t.session.outbox.capacity)
    (hle : t'.backlog ≤ t.backlog)
  | takesIn {item : Outgoing} (henqueue : t.session.outbox.enqueue? item = some t'.session.outbox)
    (hhand : t'.hand = t.hand)

theorem Accrues.of_outbox (houtbox : t'.session.outbox = t.session.outbox)
    (hhand : t'.hand.length ≤ t.hand.length) : Accrues t t' := by
  refine .keeps (by rw [houtbox]) ?_
  rw [backlog, backlog, houtbox]
  exact Nat.add_le_add_left hhand _

theorem hand_of_tenant (hx : t.tenant = some x) :
    t.hand = (x.writer.map (·.phase.hand)).getD [] := by
  rw [hand, writer?_of_tenant hx]

theorem accrues_answer (hx : t.tenant = some x) (p : Packet) : Accrues t (t.answer x p) := by
  have hclosed : ∀ reason, Accrues t { t with tenant := some (x.close reason) } := fun _ =>
    .of_outbox rfl (Nat.le_of_eq (congrArg _ (hand_congr (writer?_congr hx rfl rfl))))
  unfold answer
  split
  · exact hclosed _
  · split
    · next hsome =>
      obtain ⟨outbox, houtbox, rfl⟩ := Option.map_eq_some_iff.1 hsome
      exact .takesIn houtbox (hand_congr (writer?_congr hx rfl rfl))
    · exact hclosed _

theorem accrues_of_goes (h : Goes t move t') : Accrues t t' := by
  cases h with
  | arrive | activate => exact .of_outbox rfl (Nat.zero_le _)
  | close => exact .of_outbox rfl (Nat.le_of_eq (congrArg _ (hand_congr (t.writer?_close _))))
  | @offer m =>
    rcases t.session.offer_outcome m with heq | ⟨heq, -⟩ | ⟨item, outbox, houtbox, heq⟩
    · rw [heq]
      exact .of_outbox rfl (Nat.le_refl _)
    · rw [heq]
      exact .of_outbox rfl (Nat.le_refl _)
    · rw [heq]
      exact .takesIn houtbox rfl
  | answer hx => exact accrues_answer hx _
  | ack | abandon | complete => exact .of_outbox (Session.settle_outbox ..) (Nat.le_refl _)
  | @receive id x hx =>
    rcases t.receive_cases x id with ⟨-, heq⟩ | ⟨window, -, heq⟩
    · rw [heq]
      exact .of_outbox rfl (Nat.le_refl _)
    · rw [heq]
      -- The window is not looked at.
      cases accrues_answer (t := { t with session := { t.session with window } }) hx
          (.pubRel { packetId := id }) with
      | keeps hcapacity hle => exact .keeps hcapacity hle
      | takesIn henqueue hhand => exact .takesIn henqueue hhand
  | adjust => exact .of_outbox rfl (Nat.le_refl _)
  | @write _ _ _ x w turn hx hw hacts =>
    refine .keeps hacts.capacity_eq ?_
    have hhand : t.hand = w.phase.hand := by
      rw [hand_of_tenant hx, hw]
      rfl
    have hhand' : hand ⟨turn.session, some (x.after turn)⟩ = turn.writer.phase.hand := by
      rw [hand_of_tenant rfl, Tenant.after_writer]
      rfl
    rw [backlog, backlog, hhand, hhand']
    exact (Writer.traffic_of_acts hacts).size_add_hand_le
  | @leave kept =>
    cases kept with
    | false => exact .of_outbox rfl (Nat.zero_le _)
    | true =>
      exact .keeps rfl
        (Nat.le_trans t.session.outbox.size_discardTransient_le (Nat.le_add_right _ _))

/-- At most one item more waits than the outbox has room for. -/
structure IsBounded (capacity : Nat) (t : Tenancy) : Prop where
  capacity_eq : t.session.outbox.capacity = capacity
  backlog_le : t.backlog ≤ capacity + 1

theorem IsBounded.goes (hgoes : Goes t move t') (h : t.IsBounded capacity) :
    t'.IsBounded capacity := by
  obtain ⟨rfl, hbacklog⟩ := h
  cases accrues_of_goes hgoes with
  | keeps hcapacity hle => exact ⟨hcapacity, Nat.le_trans hle hbacklog⟩
  | takesIn henqueue hhand =>
    obtain ⟨hroom, hcapacity, hitems⟩ := Outbox.enqueue?_eq_some henqueue
    have hsize : t'.session.outbox.size = t.session.outbox.size + 1 := by
      rw [Outbox.size, hitems, List.length_append]
      rfl
    refine ⟨hcapacity, ?_⟩
    rw [backlog, hsize, hhand]
    exact Nat.add_le_add hroom t.length_hand_le

theorem isBounded_of_reaches {clientId : String} (h : Reaches (fresh clientId capacity) t) :
    t.IsBounded capacity :=
  h.induction (fun _ _ _ hgoes => IsBounded.goes hgoes) ⟨rfl, Nat.zero_le _⟩

theorem IsBounded.size_le (h : t.IsBounded capacity) : t.session.outbox.size ≤ capacity + 1 :=
  Nat.le_trans (Nat.le_add_right _ _) h.backlog_le

theorem IsBounded.size_le_of_reserving (h : t.IsBounded capacity) {w : Writer} {p : Publication}
    {parked : Bool} (hw : t.writer? = some w) (hphase : w.phase = .reserving p parked) :
    t.session.outbox.size ≤ capacity := by
  have hbacklog := h.backlog_le
  have hhand : t.hand = [p] := by
    rw [hand, hw, Option.map_some, hphase]
    rfl
  rw [backlog, hhand] at hbacklog
  exact Nat.le_of_succ_le_succ hbacklog

/-- The move has an item for the outbox, and the outbox refuses it. -/
inductive Refuses (t : Tenancy) : Move → Prop where
  | offer {m : Message} (hfull : (t.session.offer m).2 = .full) : Refuses t (.offer m)
  | answer {p : Packet} {x : Tenant} {bytes : Bytes} (hx : t.tenant = some x)
    (hbytes : p.encode x.link.level = .ok bytes)
    (hfull : t.session.outbox.enqueue? (.control bytes) = none) : Refuses t (.answer p)
  /-- The PUBREL that answers a PUBREC. -/
  | receive {id : UInt16} {window : Window} {x : Tenant} {bytes : Bytes} (hx : t.tenant = some x)
    (hwindow : t.session.window.received? id = some window)
    (hbytes : Packet.encode (.pubRel { packetId := id }) x.link.level = .ok bytes)
    (hfull : t.session.outbox.enqueue? (.control bytes) = none) : Refuses t (.receive id)

theorem outbox_answer_of_full {p : Packet} {bytes : Bytes}
    (hbytes : p.encode x.link.level = .ok bytes)
    (hfull : t.session.outbox.enqueue? (.control bytes) = none) :
    (t.answer x p).session.outbox = t.session.outbox := by
  simp only [answer, hbytes, Session.enqueue?, hfull, Option.map_none]

theorem Refuses.capacity_le (h : t.Refuses move) :
    t.session.outbox.capacity ≤ t.session.outbox.size := by
  cases h with
  | offer hfull => exact (Session.offer_of_full hfull).2
  | answer _ _ hfull | receive _ _ _ hfull => exact Outbox.enqueue?_eq_none_iff.1 hfull

theorem Refuses.outbox_eq (h : t.Refuses move) (hgoes : Goes t move t') :
    t'.session.outbox = t.session.outbox := by
  cases h with
  | offer hfull =>
    cases hgoes
    rw [(Session.offer_of_full hfull).1]
  | answer hx hbytes hfull =>
    cases hgoes with
    | answer hx' =>
      cases hx.symm.trans hx'
      exact outbox_answer_of_full hbytes hfull
  | @receive id window x _ hx hwindow hbytes hfull =>
    cases hgoes with
    | receive hx' =>
      cases hx.symm.trans hx'
      rcases t.receive_cases x id with ⟨hnone, -⟩ | ⟨window', -, heq⟩
      · cases hwindow.symm.trans hnone
      · rw [heq]
        exact outbox_answer_of_full (t := { t with session := { t.session with window := window' } })
          hbytes hfull

/-- The outbox of a session never holds more than one item above its capacity, and none above it
while the writer waits for a slot with a message that it has taken. What has no room there is refused,
and leaves the outbox as it was. -/
theorem bounded_of_reaches {clientId : String} (h : Reaches (fresh clientId capacity) t) :
    t.session.outbox.size ≤ capacity + 1 ∧
      (∀ w p parked, t.writer? = some w → w.phase = .reserving p parked →
        t.session.outbox.size ≤ capacity) ∧
      ∀ move t', t.Refuses move → t.step move = some t' →
        capacity ≤ t.session.outbox.size ∧ t'.session.outbox = t.session.outbox := by
  have hbounded := isBounded_of_reaches h
  refine ⟨hbounded.size_le, fun _ _ _ => hbounded.size_le_of_reserving, ?_⟩
  intro move t' hrefuses hstep
  have hcapacity := hrefuses.capacity_le
  rw [hbounded.capacity_eq] at hcapacity
  exact ⟨hcapacity, hrefuses.outbox_eq (goes_of_step hstep)⟩

/-- A client has the first of three messages and does not answer it. -/
def crowdedMoves : List Move :=
  [subscribing .atLeastOnce, .offer (letter 49 .atLeastOnce), .arrive narrowLink, .activate 16384] ++
    writing 7 ++ [.offer (letter 50 .atLeastOnce)] ++ writing 3 ++ [.offer (letter 51 .atLeastOnce)]

def crowdedWriter (phase : Writer.Phase) : Writer where
  link := narrowLink
  threshold := 16384
  output := { capacity := 16384 }
  phase := phase

def crowd (reason : Option CloseReason) (phase : Writer.Phase) (payloads : List UInt8) :
    Tenancy where
  session :=
    { clientId := "a"
      outbox :=
        { items := payloads.map fun payload =>
            .publish (.ofMessage (letter payload .atLeastOnce) .atLeastOnce)
          capacity := 1
          filled := ⟨true⟩ }
      subscriptions := ⟨[([97], .atLeastOnce)]⟩
      window :=
        { entries :=
            [{ packetId := 1
               publication := .ofMessage (letter 49 .atLeastOnce) .atLeastOnce }]
          nextId := 2 } }
  tenant := some { link := narrowLink, reason, writer := some (crowdedWriter phase) }

/-- The writer holds the second message. -/
def holding : Writer.Phase :=
  .reserving (.ofMessage (letter 50 .atLeastOnce) .atLeastOnce) true

/-- The third message fills the outbox. -/
def crowded : Tenancy := crowd none holding [51]

/-- The connection is closing, and the second message has gone back. -/
def overfull : Tenancy := crowd (some .connectionLost) (.closing [] 1000) [50, 51]

theorem reaches_crowded : Reaches (fresh "a" 1) crowded := ⟨crowdedMoves, by decide +kernel⟩

theorem reaches_overfull : Reaches (fresh "a" 1) overfull :=
  ⟨crowdedMoves ++ .close .connectionLost :: writing 1, by decide +kernel⟩

theorem bounded_of_reaches_crowded :
    Reaches (fresh "a" 1) overfull ∧ overfull.session.outbox.size = 2 ∧
      overfull.session.outbox.size ≤ 1 + 1 ∧
      Reaches (fresh "a" 1) crowded ∧ crowded.writer? = some (crowdedWriter holding) ∧
      crowded.session.outbox.size ≤ 1 ∧
      crowded.Refuses (.offer (letter 52 .atLeastOnce)) ∧
      crowded.step (.offer (letter 52 .atLeastOnce)) = some crowded ∧
      1 ≤ crowded.session.outbox.size := by
  have hrefuses : crowded.Refuses (.offer (letter 52 .atLeastOnce)) := .offer (by decide)
  have hstep : crowded.step (.offer (letter 52 .atLeastOnce)) = some crowded := by decide
  have hcrowded := bounded_of_reaches reaches_crowded
  exact ⟨reaches_overfull, rfl, (bounded_of_reaches reaches_overfull).1, reaches_crowded, rfl,
    hcrowded.2.1 _ _ _ rfl rfl, hrefuses, hstep, (hcrowded.2.2 _ _ hrefuses hstep).1⟩

end Tenancy

end MqttBroker
