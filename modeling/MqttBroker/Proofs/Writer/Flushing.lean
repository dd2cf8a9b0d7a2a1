import MqttBroker.Proofs.Session.Tenancy
/-!
What a writer has flushed when it waits. It flushes before it waits for the next item, but it looks
at the outbox before it knows whether the message it takes next has a slot in the window.
-/

namespace MqttBroker

namespace Output

variable {o o' : Output} {rest rest' sent : Bytes} {room : Nat}

theorem length_pending_drain_le (o : Output) (room : Nat) :
    (o.drain room).1.pending.length ≤ o.pending.length := by
  unfold drain
  dsimp only
  split
  · exact Nat.zero_le _
  · simp only [pending, List.length_drop]
    omega

/-- What is neither pending nor still to be written has gone to the transport. -/
theorem length_pending_accept_le (h : o.accept rest room = (o', rest', sent)) :
    o'.pending.length + rest'.length ≤ o.pending.length + rest.length := by
  unfold accept at h
  split at h
  · simp only [Prod.mk.injEq] at h
    obtain ⟨rfl, rfl, -⟩ := h
    have := o.length_pending_drain_le room
    omega
  split at h
  · simp only [Prod.mk.injEq] at h
    obtain ⟨rfl, rfl, -⟩ := h
    rw [List.length_drop]
    omega
  · simp only [Prod.mk.injEq] at h
    obtain ⟨rfl, rfl, -⟩ := h
    simp only [pending, List.length_drop, List.length_append, List.length_nil]
    omega

end Output

namespace Writer

variable {env : Surroundings} {s : Session} {w : Writer} {turn : Turn}

/-- What the count of unflushed bytes says. It covers all that is pending, except that a packet is
counted only when it has been written whole. -/
def Counts (w : Writer) (s : Session) : Prop :=
  match w.phase with
  | .starting | .redelivering _ | .flushing => w.output.pending.length ≤ w.unflushed
  | .writing rest size _ => w.output.pending.length + rest.length ≤ w.unflushed + size
  | .taking parked =>
    w.output.pending.length ≤ w.unflushed ∧
      (w.unflushed = 0 ∨ parked = false ∧ w.unflushed < w.threshold ∧ s.outbox.items ≠ [])
  | .reserving _ _ =>
    w.output.pending.length ≤ w.unflushed ∧ (w.unflushed = 0 ∨ w.unflushed < w.threshold)
  | .closing _ _ | .stopped => True

theorem counts_start (link : Link) (threshold : Nat) (s : Session) :
    (start link threshold).Counts s := Nat.le_refl 0

theorem counts_settle (h : w.output.pending.length ≤ w.unflushed) :
    Counts (w.enter s (w.settle s)).writer s := by
  unfold settle
  split
  · exact h
  · next hgo =>
    simp only [Bool.or_eq_true, decide_eq_true_eq, Outbox.isEmpty, List.isEmpty_iff, not_or,
      Nat.not_le] at hgo
    exact ⟨h, .inr ⟨rfl, hgo⟩⟩

theorem counts_put (h : w.output.pending.length ≤ w.unflushed) (p : Packet)
    (left : Option (List Redelivery)) :
    Counts (w.put s p left).writer (w.put s p left).session := by
  unfold put
  split
  · exact Nat.add_le_add_right h _
  · trivial

theorem counts_begin (h : w.output.pending.length ≤ w.unflushed)
    (hcount : w.unflushed = 0 ∨ w.unflushed < w.threshold) (item : Outgoing) :
    Counts (w.begin s item).writer (w.begin s item).session := by
  unfold begin
  split
  · exact Nat.add_le_add_right h _
  · split
    · exact counts_settle h
    split
    · exact counts_put h _ _
    · exact ⟨h, hcount⟩

theorem counts_of_acts (h : Acts env s w turn) (hw : w.Counts s) :
    turn.writer.Counts turn.session := by
  unfold Counts at hw
  cases h with
  | lookUp hphase | resent hphase =>
    rw [hphase] at hw
    exact hw
  | resend hphase =>
    rw [hphase] at hw
    exact counts_put hw _ _
  | lose | interrupt | leave | giveBack | forsake | finish | stop => trivial
  | write hphase haccept =>
    rw [hphase] at hw
    exact Nat.le_trans (Output.length_pending_accept_le haccept) hw
  | @written _ _ _ _ left _ w' hphase haccept hw' =>
    rw [hphase] at hw
    have hle : w'.output.pending.length ≤ w'.unflushed := by
      subst hw'
      exact Nat.le_trans (Output.length_pending_accept_le haccept) hw
    cases left with
    | some left => exact hle
    | none => exact counts_settle hle
  | @flush room hphase =>
    rw [hphase] at hw
    exact Nat.le_trans (w.output.length_pending_drain_le room) hw
  | flushed hphase hpending =>
    exact ⟨by simp [enter, hpending], .inl rfl⟩
  | wake hphase hempty =>
    rw [hphase] at hw
    refine ⟨hw.1, .inl ?_⟩
    rcases hw.2 with hzero | ⟨hparked, -, hsome⟩
    · exact hzero
    · rcases hempty with rfl | hnone
      · cases hparked
      · exact absurd hnone hsome
  | park hphase _ hempty =>
    rw [hphase] at hw
    exact ⟨hw.1, .inl (hw.2.resolve_right fun h => h.2.2 hempty)⟩
  | take hphase =>
    rw [hphase] at hw
    exact counts_begin hw.1 (hw.2.imp_right fun h => h.2.1) _
  | wakeReserving hphase | parkReserving hphase =>
    rw [hphase] at hw
    exact hw
  | reserve hphase =>
    rw [hphase] at hw
    exact counts_put hw.1 _ _

/-- More items in the outbox do not make a count wrong. -/
theorem Counts.mono {s' : Session} (hw : w.Counts s)
    (h : s.outbox.items ≠ [] → s'.outbox.items ≠ []) : w.Counts s' := by
  unfold Counts at hw ⊢
  cases hphase : w.phase with
  | taking parked =>
    rw [hphase] at hw
    exact ⟨hw.1, hw.2.imp_right fun ⟨hparked, hless, hsome⟩ => ⟨hparked, hless, h hsome⟩⟩
  | starting | redelivering | writing | flushing | reserving | closing | stopped =>
    rw [hphase] at hw
    exact hw

end Writer

namespace Tenancy

variable {t t' : Tenancy} {move : Move} {x : Tenant}

/-- The count of the writer at work is right. -/
def Counts (t : Tenancy) : Prop := ∀ x ∈ t.tenant, ∀ w ∈ x.writer, w.Counts t.session

theorem Counts.answer (h : t.Counts) (hx : t.tenant = some x) (p : Packet) :
    (t.answer x p).Counts := by
  rcases t.answer_cases x p with ⟨reason, heq⟩ | ⟨bytes, -, heq⟩
  · rw [heq]
    rintro _ ⟨⟩ w hw
    exact h x hx w hw
  · rw [heq]
    rintro _ ⟨⟩ w hw
    exact (h x hx w hw).mono fun _ => by simp

theorem Counts.receive (h : t.Counts) (hx : t.tenant = some x) (id : UInt16) :
    (t.receive x id).Counts := by
  rcases t.receive_cases x id with ⟨-, heq⟩ | ⟨window, -, heq⟩
  · rw [heq]
    exact h
  · have hwindow : Counts { t with session := { t.session with window } } :=
      fun y hy w hw => (h y hy w hw).mono fun hsome => hsome
    rw [heq]
    exact hwindow.answer hx _

theorem Counts.goes (hgoes : Goes t move t') (h : t.Counts) : t'.Counts := by
  cases hgoes with
  | arrive =>
    rintro _ ⟨⟩ w ⟨⟩
  | activate =>
    rintro _ ⟨⟩ w ⟨⟩
    exact Writer.counts_start _ _ _
  | close =>
    rintro _ hy w hw
    obtain ⟨x, hx, rfl⟩ := Option.map_eq_some_iff.1 hy
    exact h x hx w hw
  | @offer m =>
    intro x hx w hw
    refine (h x hx w hw).mono fun hsome => ?_
    rcases t.session.offer_cases m with heq | heq | ⟨qos, heq⟩
    · rwa [heq]
    · rwa [heq]
    · rw [heq]
      simp
  | answer hx => exact h.answer hx _
  | receive hx => exact h.receive hx _
  | ack | abandon | complete =>
    intro x hx w hw
    exact (h x hx w hw).mono fun hsome => by simpa using hsome
  | adjust =>
    intro x hx w hw
    exact (h x hx w hw).mono fun hsome => hsome
  | @write _ _ _ x w turn hx hw hacts =>
    rintro _ ⟨⟩ w' hw'
    rw [Tenant.after_writer] at hw'
    cases hw'
    exact Writer.counts_of_acts hacts (h x hx w hw)
  | leave => rintro _ ⟨⟩

theorem counts_of_reaches {clientId : String} {capacity : Nat}
    (h : Reaches (fresh clientId capacity) t) : t.Counts :=
  h.induction (fun _ _ _ hgoes => Counts.goes hgoes) (by rintro _ ⟨⟩)

/-- A writer parked at the outbox has flushed all it wrote. One parked for a slot of the window has
less than its threshold left unflushed; those bytes wait with it, as nothing flushes them. -/
theorem unflushed_of_parked {clientId : String} {capacity : Nat} {w : Writer}
    (h : Reaches (fresh clientId capacity) t) (hx : t.tenant = some x) (hw : x.writer = some w) :
    (w.phase = .taking true → w.unflushed = 0 ∧ w.output.pending = []) ∧
      ∀ p, w.phase = .reserving p true →
        w.output.pending.length ≤ w.unflushed ∧ w.unflushed < max w.threshold 1 := by
  have hcounts : w.Counts t.session := counts_of_reaches h x hx w hw
  unfold Writer.Counts at hcounts
  constructor
  · intro hphase
    rw [hphase] at hcounts
    obtain ⟨hpending, hcount⟩ := hcounts
    have hzero : w.unflushed = 0 := hcount.resolve_right fun h => nomatch h.1
    rw [hzero, Nat.le_zero] at hpending
    exact ⟨hzero, List.length_eq_zero_iff.1 hpending⟩
  · intro p hphase
    rw [hphase] at hcounts
    exact ⟨hcounts.1, by omega⟩

/-- Two messages wait for a client; its writer sends one and waits for the slot of the other. -/
def heldUpMoves : List Move :=
  [subscribing .atLeastOnce, .offer (letter 49 .atLeastOnce), .offer (letter 50 .atLeastOnce),
    .arrive narrowLink, .activate 16384] ++ writing 8

/-- The PUBLISH of the first message is in the buffer and stays there. -/
def heldUpWriter : Writer where
  link := narrowLink
  threshold := 16384
  output := { capacity := 16384, buffer := [50, 6, 0, 1, 97, 0, 1, 49] }
  unflushed := 8
  phase := .reserving { topic := [97], payload := [50], qos := .atLeastOnce } true

def heldUp : Tenancy where
  session :=
    { clientId := "a"
      outbox := { capacity := 1000, filled := ⟨true⟩ }
      subscriptions := ⟨[([97], .atLeastOnce)]⟩
      window :=
        { entries :=
            [{ packetId := 1
               publication := { topic := [97], payload := [49], qos := .atLeastOnce } }]
          nextId := 2 } }
  tenant := some { link := narrowLink, writer := some heldUpWriter }

theorem reaches_heldUp : Reaches (fresh "a" 1000) heldUp := ⟨heldUpMoves, by decide +kernel⟩

theorem unflushed_of_parked_heldUp :
    Reaches (fresh "a" 1000) heldUp ∧ heldUpWriter.phase ≠ .taking true ∧
      heldUpWriter.output.pending.length ≤ 8 ∧ heldUpWriter.unflushed < 16384 :=
  have hparked := unflushed_of_parked reaches_heldUp rfl rfl
  ⟨reaches_heldUp, by decide, hparked.2 _ rfl⟩

/-- A writer can be parked with bytes that it has not flushed. -/
theorem not_flushed_of_parked :
    ¬ ∀ (clientId : String) (capacity : Nat) (t : Tenancy) (x : Tenant) (w : Writer),
      Reaches (fresh clientId capacity) t → t.tenant = some x → x.writer = some w →
      (w.phase = .taking true ∨ ∃ p, w.phase = .reserving p true) → w.unflushed = 0 := by
  intro hclaim
  have hzero : heldUpWriter.unflushed = 0 :=
    hclaim "a" 1000 heldUp _ heldUpWriter reaches_heldUp rfl rfl (.inr ⟨_, rfl⟩)
  cases hzero

end Tenancy

end MqttBroker
