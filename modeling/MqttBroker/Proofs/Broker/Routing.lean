import Mathlib.Data.Finset.Card
import MqttBroker.Proofs.Broker.Registry
import MqttBroker.Proofs.Broker.Updates
import MqttBroker.Proofs.Session.Operations
/-!
Where a message goes. Each registered session with a filter that selects the topic gets one copy at
the tail of its outbox if there is room; one without room, whose client is there, loses its
connection. What becomes of a session depends on nothing but the session and the message.
-/

namespace MqttBroker

/-- The highest QoS among the filters that select the topic. -/
def Subscriptions.Grants (s : Subscriptions) (topic : Bytes) (qos : QoS) : Prop :=
  (∃ filter, (filter, qos) ∈ s.entries ∧ Topic.isMatch topic filter = true) ∧
    ∀ entry ∈ s.entries, Topic.isMatch topic entry.1 = true → entry.2 ≤ qos

theorem QoS.eq_of_rank_eq {a b : QoS} (h : a.rank = b.rank) : a = b := by
  cases a <;> cases b <;> first | rfl | cases h

theorem QoS.le_exactlyOnce (qos : QoS) : qos ≤ .exactlyOnce := by
  cases qos <;> decide

namespace Subscriptions

/-- What a look at the filters from the first one on has found: nothing, or the best so far. -/
def Best (entries : List (Bytes × QoS)) (topic : Bytes) : Option QoS → Prop
  | none => ∀ entry ∈ entries, Topic.isMatch topic entry.1 = false
  | some qos => Grants ⟨entries⟩ topic qos

namespace Best

variable {entries : List (Bytes × QoS)} {topic : Bytes} {best : Option QoS} {entry : Bytes × QoS}

theorem raise (h : Best entries topic best) (hraises : raises best entry.2 = true)
    (hmatch : Topic.isMatch topic entry.1 = true) :
    Best (entries ++ [entry]) topic (some entry.2) := by
  refine ⟨⟨entry.1, by simp, hmatch⟩, fun other hother hselects => ?_⟩
  rcases List.mem_append.1 hother with hold | hnew
  · cases best with
    | none =>
      rw [h other hold] at hselects
      cases hselects
    | some qos =>
      have hlower : qos.rank < entry.2.rank := of_decide_eq_true hraises
      have hle : other.2.rank ≤ qos.rank := h.2 other hold hselects
      exact Nat.le_trans hle (Nat.le_of_lt hlower)
  · rw [List.mem_singleton.1 hnew]
    exact Nat.le_refl _

theorem pass (h : Best entries topic best)
    (hpass : raises best entry.2 = false ∨ Topic.isMatch topic entry.1 = false) :
    Best (entries ++ [entry]) topic best := by
  cases best with
  | none =>
    intro other hother
    rcases List.mem_append.1 hother with hold | hnew
    · exact h other hold
    · rw [List.mem_singleton.1 hnew]
      exact hpass.resolve_left nofun
  | some qos =>
    obtain ⟨⟨filter, hfilter, hselects⟩, hhighest⟩ := h
    refine ⟨⟨filter, List.mem_append_left _ hfilter, hselects⟩, fun other hother hother' => ?_⟩
    rcases List.mem_append.1 hother with hold | hnew
    · exact hhighest other hold hother'
    · rw [List.mem_singleton.1 hnew] at hother' ⊢
      rcases hpass with hlow | hno
      · exact Nat.le_of_not_lt (of_decide_eq_false hlow)
      · rw [hno] at hother'
        cases hother'

theorem of_exactlyOnce (h : Best entries topic (some .exactlyOnce))
    (later : List (Bytes × QoS)) : Best (entries ++ later) topic (some .exactlyOnce) := by
  obtain ⟨⟨filter, hfilter, hselects⟩, -⟩ := h
  exact ⟨⟨filter, List.mem_append_left _ hfilter, hselects⟩, fun other _ _ =>
    other.2.le_exactlyOnce⟩

/-- Neither passing over what cannot be better nor stopping at QoS 2 misses the best. -/
theorem search (h : Best entries topic best) (later : List (Bytes × QoS)) :
    Best (entries ++ later) topic (search topic best later) := by
  induction later generalizing entries best with
  | nil => rwa [List.append_nil]
  | cons entry later ih =>
    rw [Subscriptions.search]
    split
    · next hbetter =>
      obtain ⟨hraises, hmatch⟩ := Bool.and_eq_true_iff.1 hbetter
      have hraised := h.raise hraises hmatch
      split
      · next hqos =>
        rw [hqos] at hraised ⊢
        have hdone := hraised.of_exactlyOnce later
        rwa [List.append_assoc] at hdone
      · have hnext := ih hraised
        rwa [List.append_assoc] at hnext
    · next hworse =>
      have hnext := ih (h.pass (Bool.and_eq_false_iff.1 (Bool.not_eq_true _ ▸ hworse)))
      rwa [List.append_assoc] at hnext

end Best

theorem best_matchMax (s : Subscriptions) (topic : Bytes) :
    Best s.entries topic (s.matchMax topic) := by
  have hnone : Best [] topic none := by rintro _ ⟨⟩
  exact hnone.search s.entries

theorem matchMax_eq_some {s : Subscriptions} {topic : Bytes} {qos : QoS} :
    s.matchMax topic = some qos ↔ s.Grants topic qos := by
  have hbest := s.best_matchMax topic
  constructor
  · intro h
    rwa [h] at hbest
  · rintro ⟨⟨filter, hfilter, hselects⟩, hhighest⟩
    cases hmax : s.matchMax topic with
    | none =>
      rw [hmax] at hbest
      rw [hbest _ hfilter] at hselects
      cases hselects
    | some best =>
      rw [hmax] at hbest
      obtain ⟨⟨other, hother, hother'⟩, hbest⟩ := hbest
      have hle : best.rank ≤ qos.rank := hhighest _ hother hother'
      have hge : qos.rank ≤ best.rank := hbest _ hfilter hselects
      rw [QoS.eq_of_rank_eq (Nat.le_antisymm hle hge)]

end Subscriptions

namespace Session

variable {s : Session} {m : Message} {qos qos' : QoS}

/-- A copy of the message at that QoS is meant for the session: the lower of the message's and the
granted QoS, and none at QoS 0 for a client that is not there. -/
def IsDue (s : Session) (m : Message) (qos : QoS) : Prop :=
  (∃ granted, s.subscriptions.Grants m.topic granted ∧ qos = min m.qos granted) ∧
    (qos = .atMostOnce → s.active = true)

def HasRoom (s : Session) : Prop := s.outbox.items.length < s.outbox.capacity

/-- A copy of the message at that QoS goes into the outbox. -/
def Accepts (s : Session) (m : Message) (qos : QoS) : Prop := s.IsDue m qos ∧ s.HasRoom

/-- A copy of the message is meant for the session, but there is no room for it, and the connection
with this lease should be reading. -/
def Chokes (s : Session) (m : Message) (l : LeaseId) : Prop :=
  (∃ qos, s.IsDue m qos) ∧ ¬ s.HasRoom ∧ s.active = true ∧ s.owner = some l

theorem IsDue.unique (h : s.IsDue m qos) (h' : s.IsDue m qos') : qos = qos' := by
  obtain ⟨⟨granted, hgranted, rfl⟩, -⟩ := h
  obtain ⟨⟨granted', hgranted', rfl⟩, -⟩ := h'
  have heq := (Subscriptions.matchMax_eq_some.2 hgranted).symm.trans
    (Subscriptions.matchMax_eq_some.2 hgranted')
  rw [Option.some.inj heq]

theorem enqueue?_eq (s : Session) (item : Outgoing) :
    s.enqueue? item = if s.outbox.capacity ≤ s.outbox.items.length then none
      else some (s.append item) := by
  unfold enqueue? Outbox.enqueue? Outbox.push?
  split <;> rfl

/-- What a session makes of a message it is offered. -/
inductive Takes (s : Session) (m : Message) : Session × Delivery → Prop where
  | skipped (hno : ∀ qos, ¬ s.IsDue m qos) : Takes s m (s, .skipped)
  | queued {qos : QoS} (hdue : s.IsDue m qos) (hroom : s.HasRoom) :
    Takes s m (s.append (.publish (Publication.ofMessage m qos)), .queued)
  | full {qos : QoS} (hdue : s.IsDue m qos) (hroom : ¬ s.HasRoom) : Takes s m (s, .full)

theorem takes_offer (s : Session) (m : Message) : s.Takes m (s.offer m) := by
  unfold offer
  split
  · next hnone =>
    refine .skipped fun qos hdue => ?_
    obtain ⟨⟨granted, hgranted, -⟩, -⟩ := hdue
    rw [Subscriptions.matchMax_eq_some.2 hgranted] at hnone
    cases hnone
  · next granted hsome =>
    have hgrants := Subscriptions.matchMax_eq_some.1 hsome
    dsimp only
    split
    · next hskip =>
      simp only [Bool.and_eq_true, decide_eq_true_eq, Bool.not_eq_true'] at hskip
      refine .skipped fun qos hdue => ?_
      obtain ⟨⟨granted', hgranted', rfl⟩, hactive⟩ := hdue
      have heq := hsome.symm.trans (Subscriptions.matchMax_eq_some.2 hgranted')
      cases Option.some.inj heq
      rw [hactive hskip.1] at hskip
      cases hskip.2
    · next hkeep =>
      have hdue : s.IsDue m (min m.qos granted) := by
        refine ⟨⟨granted, hgrants, rfl⟩, fun hzero => ?_⟩
        simpa [hzero] using hkeep
      rw [enqueue?_eq]
      split
      · next s' hs' =>
        obtain ⟨hroom, hs'⟩ := Option.ite_none_left_eq_some.1 hs'
        cases hs'
        exact .queued hdue (Nat.lt_of_not_le hroom)
      · next hnone =>
        refine .full hdue (Nat.not_lt.2 ?_)
        simpa using hnone

end Session

namespace Broker

variable {b b' b₁ b₂ : Broker} {ids : List SessionId} {id : SessionId} {m : Message} {n n₁ n₂ : Nat}

/-- From `b` to `b'` the message goes to `n` of the sessions in `ids`, and nothing else happens. -/
structure FansOut (ids : List SessionId) (m : Message) (b b' : Broker) (n : Nat) : Prop where
  queued : ∀ id ∈ ids, ∀ qos, (b.session id).Accepts m qos →
    b'.session id = (b.session id).append
      (.publish { topic := m.topic, payload := m.payload, qos, retain := false, dup := false })
  passedOver : ∀ id, (id ∈ ids → ∀ qos, ¬ (b.session id).Accepts m qos) →
    b'.session id = b.session id
  counted : ∃ takers : Finset SessionId,
    (∀ id, id ∈ takers ↔ id ∈ ids ∧ ∃ qos, (b.session id).Accepts m qos) ∧ n = takers.card
  choked : ∀ l < b.leases.length, (∃ id ∈ ids, (b.session id).Chokes m l) →
    b'.lease l = (b.lease l).close .queueOverflow
  undisturbed : ∀ l, (∀ id ∈ ids, ¬ (b.session id).Chokes m l) → b'.lease l = b.lease l
  rest : b' = { b with sessions := b'.sessions, leases := b'.leases }
  sessions : b'.sessions.length = b.sessions.length
  leases : b'.leases.length = b.leases.length

/-- Nobody has been asked yet. -/
theorem fansOut_nil (m : Message) (b : Broker) : FansOut [] m b b 0 where
  queued := nofun
  passedOver _ _ := rfl
  counted := ⟨∅, by simp, rfl⟩
  choked _ _ := by rintro ⟨_, hmem, -⟩; cases hmem
  undisturbed _ _ := rfl
  rest := rfl
  sessions := rfl
  leases := rfl

theorem FansOut.congr {ids ids' : List SessionId} (hids : ∀ id, id ∈ ids ↔ id ∈ ids')
    (h : FansOut ids m b b' n) : FansOut ids' m b b' n where
  queued id hid := h.queued id ((hids id).2 hid)
  passedOver id hno := h.passedOver id fun hid => hno ((hids id).1 hid)
  counted := by
    obtain ⟨takers, htakers, hn⟩ := h.counted
    exact ⟨takers, fun id => by rw [htakers, hids], hn⟩
  choked l hl := by
    rintro ⟨id, hid, hchokes⟩
    exact h.choked l hl ⟨id, (hids id).2 hid, hchokes⟩
  undisturbed l hno := h.undisturbed l fun id hid => hno id ((hids id).1 hid)
  rest := h.rest
  sessions := h.sessions
  leases := h.leases

/-! ### One session after the other -/

theorem deliver_cases (b : Broker) (id : SessionId) (m : Message) :
    (∀ qos, ¬ (b.session id).IsDue m qos) ∧ b.deliver id m = (b, false) ∨
      (∃ qos, (b.session id).Accepts m qos ∧ b.deliver id m =
        (b.putSession id ((b.session id).append (.publish (Publication.ofMessage m qos))),
          true)) ∨
      (∃ qos, (b.session id).IsDue m qos) ∧ ¬ (b.session id).HasRoom ∧ b.deliver id m =
        (if (b.session id).active then b.closeOwner id .queueOverflow else b, false) := by
  have htakes := (b.session id).takes_offer m
  unfold deliver
  generalize (b.session id).offer m = offered at htakes
  cases htakes with
  | skipped hno => exact .inl ⟨hno, rfl⟩
  | @queued qos hdue hroom => exact .inr (.inl ⟨qos, ⟨hdue, hroom⟩, rfl⟩)
  | @full qos hdue hroom => exact .inr (.inr ⟨⟨qos, hdue⟩, hroom, rfl⟩)

namespace FansOut

/-- A session that takes no copy; its connection may have been asked to close. -/
theorem pass {leases : List Lease} (h : FansOut ids m b b' n)
    (hno : ∀ qos, ¬ (b.session id).Accepts m qos) (hlength : leases.length = b'.leases.length)
    (hchoked : ∀ l < b.leases.length, (∃ id' ∈ id :: ids, (b.session id').Chokes m l) →
      lease { b' with leases } l = (b.lease l).close .queueOverflow)
    (hundisturbed : ∀ l, (∀ id' ∈ id :: ids, ¬ (b.session id').Chokes m l) →
      lease { b' with leases } l = b.lease l) :
    FansOut (id :: ids) m b { b' with leases } n where
  queued id' hid' qos haccepts := by
    rcases List.mem_cons.1 hid' with rfl | hmem
    · exact absurd haccepts (hno qos)
    · exact h.queued id' hmem qos haccepts
  passedOver id' hno' := h.passedOver id' fun hmem => hno' (List.mem_cons_of_mem _ hmem)
  counted := by
    obtain ⟨takers, htakers, hn⟩ := h.counted
    refine ⟨takers, fun id' => (htakers id').trans ?_, hn⟩
    refine ⟨fun ⟨hmem, haccepts⟩ => ⟨List.mem_cons_of_mem _ hmem, haccepts⟩, ?_⟩
    rintro ⟨hmem, qos, haccepts⟩
    rcases List.mem_cons.1 hmem with rfl | hmem
    · exact absurd haccepts (hno qos)
    · exact ⟨hmem, qos, haccepts⟩
  choked := hchoked
  undisturbed := hundisturbed
  rest := by rw [h.rest]
  sessions := h.sessions
  leases := hlength.trans h.leases

theorem skip (h : FansOut ids m b b' n) (hno : ∀ qos, ¬ (b.session id).Accepts m qos)
    (hquiet : ∀ l, ¬ (b.session id).Chokes m l) : FansOut (id :: ids) m b b' n := by
  refine h.pass hno rfl ?_ fun l hno' =>
    h.undisturbed l fun id' hmem => hno' id' (List.mem_cons_of_mem _ hmem)
  rintro l hl ⟨id', hid', hchokes⟩
  rcases List.mem_cons.1 hid' with rfl | hmem
  · exact absurd hchokes (hquiet l)
  · exact h.choked l hl ⟨id', hmem, hchokes⟩

theorem choke {l : LeaseId} (h : FansOut ids m b b' n) (hchokes : (b.session id).Chokes m l) :
    FansOut (id :: ids) m b (b'.closeLease l .queueOverflow) n := by
  refine h.pass (fun qos haccepts => hchokes.2.1 haccepts.2) (length_updateLease ..) ?_ ?_
  · intro l' hl' hsome
    show (b'.updateLease l (·.close .queueOverflow)).lease l' = _
    by_cases hagain : ∃ id' ∈ ids, (b.session id').Chokes m l'
    · have hclosed := h.choked l' hl' hagain
      by_cases heq : l = l'
      · rw [heq, lease_updateLease (h.leases ▸ hl'), hclosed, Lease.close_close]
      · rw [lease_updateLease_of_ne heq, hclosed]
    · obtain ⟨id', hid', hchokes'⟩ := hsome
      rcases List.mem_cons.1 hid' with rfl | hmem
      · cases hchokes.2.2.2.symm.trans hchokes'.2.2.2
        rw [lease_updateLease (h.leases ▸ hl'), h.undisturbed l fun id' hmem hchokes' =>
          hagain ⟨id', hmem, hchokes'⟩]
      · exact absurd ⟨id', hmem, hchokes'⟩ hagain
  · intro l' hno
    have hne : l ≠ l' := by
      rintro rfl
      exact hno id (List.mem_cons_self ..) hchokes
    exact (lease_updateLease_of_ne hne _).trans
      (h.undisturbed l' fun id' hmem => hno id' (List.mem_cons_of_mem _ hmem))

theorem queue {qos : QoS} (h : FansOut ids m b b' n) (hfirst : id ∉ ids)
    (hid : id < b.sessions.length) (haccepts : (b.session id).Accepts m qos) :
    FansOut (id :: ids) m b
      (b'.putSession id ((b.session id).append (.publish (Publication.ofMessage m qos))))
      (n + 1) where
  queued id' hid' qos' haccepts' := by
    rcases List.mem_cons.1 hid' with rfl | hmem
    · rw [putSession, session_updateSession (h.sessions ▸ hid), haccepts.1.unique haccepts'.1]
      rfl
    · have hne : id ≠ id' := by
        rintro rfl
        exact hfirst hmem
      rw [putSession, session_updateSession_of_ne hne, h.queued id' hmem qos' haccepts']
  passedOver id' hno := by
    have hne : id ≠ id' := by
      rintro rfl
      exact hno (List.mem_cons_self ..) qos haccepts
    rw [putSession, session_updateSession_of_ne hne]
    exact h.passedOver id' fun hmem => hno (List.mem_cons_of_mem _ hmem)
  counted := by
    obtain ⟨takers, htakers, hn⟩ := h.counted
    have hnew : id ∉ takers := fun hmem => hfirst ((htakers id).1 hmem).1
    refine ⟨takers.cons id hnew, fun id' => ?_, by rw [Finset.card_cons, hn]⟩
    rw [Finset.mem_cons, htakers, List.mem_cons]
    constructor
    · rintro (rfl | ⟨hmem, haccepts'⟩)
      · exact ⟨.inl rfl, qos, haccepts⟩
      · exact ⟨.inr hmem, haccepts'⟩
    · rintro ⟨rfl | hmem, haccepts'⟩
      · exact .inl rfl
      · exact .inr ⟨hmem, haccepts'⟩
  choked l hl := by
    rintro ⟨id', hid', hchokes⟩
    rcases List.mem_cons.1 hid' with rfl | hmem
    · exact absurd haccepts.2 hchokes.2.1
    · exact h.choked l hl ⟨id', hmem, hchokes⟩
  undisturbed l hno := h.undisturbed l fun id' hmem => hno id' (List.mem_cons_of_mem _ hmem)
  rest := by
    rw [putSession, updateSession, h.rest]
  sessions := (length_updateSession ..).trans h.sessions
  leases := h.leases

/-- A session that has not been asked before is asked. -/
theorem deliver (h : FansOut ids m b b' n) (hfirst : id ∉ ids) (hid : id < b.sessions.length) :
    FansOut (id :: ids) m b (b'.deliver id m).1
      (if (b'.deliver id m).2 then n + 1 else n) := by
  have hsame : b'.session id = b.session id := h.passedOver id fun hmem => absurd hmem hfirst
  rcases deliver_cases b' id m with ⟨hno, heq⟩ | ⟨qos, haccepts, heq⟩ | ⟨hdue, hroom, heq⟩
  · rw [hsame] at hno
    rw [heq]
    exact h.skip (fun qos haccepts => hno qos haccepts.1) fun l hchokes =>
      hchokes.1.elim hno
  · rw [hsame] at haccepts heq
    rw [heq]
    exact h.queue hfirst hid haccepts
  · rw [hsame] at hdue hroom heq
    have hno : ∀ qos, ¬ (b.session id).Accepts m qos := fun qos haccepts => hroom haccepts.2
    rw [heq, if_neg Bool.false_ne_true]
    split
    · next hactive =>
      rw [closeOwner, hsame]
      split
      · next l howner => exact h.choke ⟨hdue, hroom, hactive, howner⟩
      · next hnone =>
        exact h.skip hno fun l hchokes => absurd (hnone.symm.trans hchokes.2.2.2) nofun
    · next hidle => exact h.skip hno fun l hchokes => hidle hchokes.2.2.1

/-- What the registered sessions and the leases become is all that there is to say. -/
theorem unique (h₁ : FansOut ids m b b₁ n₁) (h₂ : FansOut ids m b b₂ n₂) :
    b₁ = b₂ ∧ n₁ = n₂ := by
  have hsessions : b₁.sessions = b₂.sessions := by
    refine sessions_ext (h₁.sessions.trans h₂.sessions.symm) fun id => ?_
    by_cases haccepts : id ∈ ids ∧ ∃ qos, (b.session id).Accepts m qos
    · obtain ⟨hid, qos, haccepts⟩ := haccepts
      rw [h₁.queued id hid qos haccepts, h₂.queued id hid qos haccepts]
    · have hno : id ∈ ids → ∀ qos, ¬ (b.session id).Accepts m qos := fun hid qos h =>
        haccepts ⟨hid, qos, h⟩
      rw [h₁.passedOver id hno, h₂.passedOver id hno]
  have hleases : b₁.leases = b₂.leases := by
    refine List.ext_getElem (h₁.leases.trans h₂.leases.symm) fun l hl hl' => ?_
    rw [← lease_eq_getElem hl, ← lease_eq_getElem hl']
    by_cases hchokes : ∃ id ∈ ids, (b.session id).Chokes m l
    · rw [h₁.choked l (h₁.leases ▸ hl) hchokes, h₂.choked l (h₁.leases ▸ hl) hchokes]
    · have hno : ∀ id ∈ ids, ¬ (b.session id).Chokes m l := fun id hid h =>
        hchokes ⟨id, hid, h⟩
      rw [h₁.undisturbed l hno, h₂.undisturbed l hno]
  obtain ⟨takers₁, htakers₁, rfl⟩ := h₁.counted
  obtain ⟨takers₂, htakers₂, rfl⟩ := h₂.counted
  have htakers : takers₁ = takers₂ := Finset.ext fun id =>
    (htakers₁ id).trans (htakers₂ id).symm
  refine ⟨?_, by rw [htakers]⟩
  rw [h₁.rest, h₂.rest, hsessions, hleases]

end FansOut

theorem fansOut_foldl {later : List SessionId} (hlater : later.Nodup)
    (hfirst : ∀ id ∈ later, id ∉ ids) (hknown : ∀ id ∈ later, id < b.sessions.length)
    (h : FansOut ids m b b' n) :
    FansOut (later.reverse ++ ids) m b
      (later.foldl (fun x id => ((x.1.deliver id m).1,
        if (x.1.deliver id m).2 then x.2 + 1 else x.2)) (b', n)).1
      (later.foldl (fun x id => ((x.1.deliver id m).1,
        if (x.1.deliver id m).2 then x.2 + 1 else x.2)) (b', n)).2 := by
  induction later generalizing ids b' n with
  | nil => exact h
  | cons id later ih =>
    obtain ⟨hid, hlater⟩ := List.nodup_cons.1 hlater
    have hnext := h.deliver (hfirst id (List.mem_cons_self ..)) (hknown id (List.mem_cons_self ..))
    have hfirst' : ∀ id' ∈ later, id' ∉ id :: ids := by
      intro id' hmem hid'
      rcases List.mem_cons.1 hid' with rfl | hids
      · exact hid hmem
      · exact hfirst id' (List.mem_cons_of_mem _ hmem) hids
    rw [List.reverse_cons, List.append_assoc, List.singleton_append, List.foldl_cons]
    exact ih hlater hfirst' (fun id' hmem => hknown id' (List.mem_cons_of_mem _ hmem)) hnext

theorem fansOut_listed (h : b.Filed) (m : Message) :
    FansOut b.listed m b (b.dispatch m).1 (b.dispatch m).2 := by
  have hfold := fansOut_foldl h.nodup_listed (fun _ _ => List.not_mem_nil)
    (fun _ => h.lt_of_listed) (fansOut_nil m b)
  rw [listed, List.foldl_map] at hfold
  exact hfold.congr fun id => by rw [List.append_nil, List.mem_reverse, listed]

theorem Filed.perm {registry : List (String × SessionId)} (h : b.Filed)
    (hperm : registry.Perm b.registry) : Filed { b with registry } where
  keys := (hperm.map Prod.fst).nodup_iff.2 h.keys
  known entry hentry := h.known entry (hperm.mem_iff.1 hentry)
  named entry hentry := h.named entry (hperm.mem_iff.1 hentry)

/-- The order of the registry makes no difference to what becomes of a message. -/
theorem dispatch_perm {registry : List (String × SessionId)} (h : b.Filed) (m : Message)
    (hperm : registry.Perm b.registry) :
    dispatch { b with registry } m = ({ (b.dispatch m).1 with registry }, (b.dispatch m).2) := by
  have hother := fansOut_listed (h.perm hperm) m
  have hids : ∀ id, id ∈ listed { b with registry } ↔ id ∈ b.listed := fun id =>
    (hperm.map Prod.snd).mem_iff
  have hsame : FansOut (listed { b with registry }) m { b with registry }
      { (b.dispatch m).1 with registry } (b.dispatch m).2 := by
    have hout := (fansOut_listed h m).congr fun id => (hids id).symm
    exact { hout with rest := by rw [hout.rest] }
  obtain ⟨hbroker, hcount⟩ := hother.unique hsame
  exact Prod.ext hbroker hcount

/-- A registered session gets one copy of a message at the most. -/
theorem session_dispatch_cases (hfiled : b.Filed) (m : Message) (id : SessionId) :
    (b.dispatch m).1.session id = b.session id ∨ ∃ qos,
      (b.dispatch m).1.session id =
        (b.session id).append (.publish (Publication.ofMessage m qos)) := by
  have hfans := fansOut_listed hfiled m
  by_cases haccepts : id ∈ b.listed ∧ ∃ qos, (b.session id).Accepts m qos
  · obtain ⟨hid, qos, haccepts⟩ := haccepts
    exact .inr ⟨qos, hfans.queued id hid qos haccepts⟩
  · exact .inl (hfans.passedOver id fun hid qos hqos => haccepts ⟨hid, qos, hqos⟩)

/-- What becomes of a session is a matter of that session and the message. -/
theorem session_dispatch_eq {id₁ id₂ : SessionId} (h₁ : b₁.Filed) (h₂ : b₂.Filed) (m : Message)
    (hid₁ : id₁ ∈ b₁.listed) (hid₂ : id₂ ∈ b₂.listed) (hsame : b₁.session id₁ = b₂.session id₂) :
    (b₁.dispatch m).1.session id₁ = (b₂.dispatch m).1.session id₂ := by
  by_cases haccepts : ∃ qos, (b₁.session id₁).Accepts m qos
  · obtain ⟨qos, haccepts⟩ := haccepts
    rw [(fansOut_listed h₁ m).queued id₁ hid₁ qos haccepts,
      (fansOut_listed h₂ m).queued id₂ hid₂ qos (hsame ▸ haccepts), hsame]
  · have hno₁ : ∀ qos, ¬ (b₁.session id₁).Accepts m qos := fun qos h => haccepts ⟨qos, h⟩
    rw [(fansOut_listed h₁ m).passedOver id₁ fun _ => hno₁,
      (fansOut_listed h₂ m).passedOver id₂ fun _ => hsame ▸ hno₁, hsame]

/-- A message goes to each registered session with a filter for it that has room, once and at the
tail. A session without room loses its connection, and nothing else changes. It makes no difference
in which order the sessions are asked, and to what becomes of one of them which others there are. -/
theorem fansOut_dispatch (h : b.Filed) (m : Message) :
    FansOut b.listed m b (b.dispatch m).1 (b.dispatch m).2 ∧
      (∀ registry : List (String × SessionId), registry.Perm b.registry →
        dispatch { b with registry } m =
          ({ (b.dispatch m).1 with registry }, (b.dispatch m).2)) ∧
      ∀ (b' : Broker) (id id' : SessionId), b'.Filed → id ∈ b.listed → id' ∈ b'.listed →
        b.session id = b'.session id' →
        (b.dispatch m).1.session id = (b'.dispatch m).1.session id' :=
  ⟨fansOut_listed h m, fun _ hperm => dispatch_perm h m hperm,
    fun _ _ _ h' hid hid' hsame => session_dispatch_eq h h' m hid hid' hsame⟩

/-- Four clients with a filter for the topic "a": one with two overlapping filters, one whose outbox
is full, one that is absent and asks for QoS 0 only, and one for another topic. -/
def crowded : Broker where
  sessions :=
    [{ Session.fresh "twice" 2 with subscriptions := ⟨[([97], .atMostOnce), ([35], .atLeastOnce)]⟩ },
      { Session.fresh "full" 0 with
        subscriptions := ⟨[([97], .exactlyOnce)]⟩, active := true, owner := some 0 },
      { Session.fresh "absent" 2 with subscriptions := ⟨[([43], .atMostOnce)]⟩ },
      { Session.fresh "other" 2 with subscriptions := ⟨[([98], .atMostOnce)]⟩ }]
  registry := [("twice", 0), ("full", 1), ("absent", 2), ("other", 3)]
  leases := [{}]

theorem filed_crowded : crowded.Filed := ⟨by decide, by decide, by decide⟩

theorem fansOut_dispatch_crowded :
    let m : Message := { topic := [97], payload := [1], qos := .exactlyOnce }
    crowded.Filed ∧ FansOut [0, 1, 2, 3] m crowded (crowded.dispatch m).1 1 ∧
      (crowded.dispatch m).1.lease 0 = { reason := some .queueOverflow } :=
  ⟨filed_crowded, (fansOut_dispatch filed_crowded _).1, by decide⟩

end Broker

end MqttBroker
