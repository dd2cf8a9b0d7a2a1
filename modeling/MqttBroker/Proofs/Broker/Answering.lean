import MqttBroker.Proofs.Network.Intake
import MqttBroker.Proofs.Session.Subscribed
/-!
The control packets that come into the outboxes while a packet is handled. A request is answered to
its client, and once; what is routed for it are PUBLISHes.
-/

namespace MqttBroker

def Outgoing.control? : Outgoing → Option Bytes
  | control bytes => some bytes
  | publish _ => none

/-! ### What is due -/

/-- What a SUBACK says of one filter. -/
structure SubscriptionOptions.IsAnsweredBy (v5 : Bool) (filter : Bytes × SubscriptionOptions)
    (code : UInt8) : Prop where
  lt_iff : code < 0x80 ↔ Topic.isValidFilter filter.1 = true
  granted : Topic.isValidFilter filter.1 = true → code = filter.2.qos.code
  refused : Topic.isValidFilter filter.1 = false → code = if v5 then 0x8F else 0x80

/-- The answer to a packet that a session gets in the state `s`, if there is to be one. `takers` is
how many sessions take the message of a PUBLISH. -/
inductive Packet.Due (v5 : Bool) (s : Session) (takers : Nat) : Packet → Option Packet → Prop where
  | atMostOnce {p : Publish} (hqos : p.qos = .atMostOnce) : Due v5 s takers (publish p) none
  | atLeastOnce {p : Publish} {id : UInt16} (hqos : p.qos = .atLeastOnce)
    (hid : p.packetId = some id) :
    Due v5 s takers (publish p)
      (some (pubAck (Ack.withReason id (if takers = 0 then 0x10 else 0x00))))
  /-- A message that has come in before is not routed again. -/
  | exactlyOnce {p : Publish} {id : UInt16} (hqos : p.qos = .exactlyOnce)
    (hid : p.packetId = some id) :
    Due v5 s takers (publish p)
      (some (pubRec (Ack.withReason id (if takers = 0 ∧ id ∉ s.incoming then 0x10 else 0x00))))
  | released {a : Ack} (hpending : a.packetId ∈ s.incoming) :
    Due v5 s takers (pubRel a) (some (pubComp { packetId := a.packetId }))
  | notPending {a : Ack} (hnot : a.packetId ∉ s.incoming) :
    Due v5 s takers (pubRel a)
      (if v5 then some (pubComp (Ack.withReason a.packetId 0x92)) else none)
  /-- The client does not want the message. -/
  | refused {a : Ack} (hv5 : v5 = true) (hrefused : 0x80 ≤ a.reason) :
    Due v5 s takers (pubRec a) none
  | received {a : Ack} (hgood : v5 = true → a.reason < 0x80)
    (hflight : ∃ e ∈ s.window.entries, e.packetId = a.packetId ∧ e.publication.qos = .exactlyOnce) :
    Due v5 s takers (pubRec a) (some (pubRel { packetId := a.packetId }))
  | notInFlight {a : Ack} (hgood : v5 = true → a.reason < 0x80)
    (hnot : ¬ ∃ e ∈ s.window.entries,
      e.packetId = a.packetId ∧ e.publication.qos = .exactlyOnce) :
    Due v5 s takers (pubRec a)
      (if v5 then some (pubRel (Ack.withReason a.packetId 0x92)) else none)
  | subscribe {p : Subscribe} {codes : Bytes}
    (hcodes : List.Forall₂ (SubscriptionOptions.IsAnsweredBy v5) p.filters codes) :
    Due v5 s takers (subscribe p) (some (subAck { packetId := p.packetId, returnCodes := codes }))
  /-- A filter is found if it is held and is not given up at an earlier position already. -/
  | unsubscribe {p : Unsubscribe} {codes : Bytes}
    (hcodes : codes = if v5 then p.filters.mapIdx fun i filter =>
        if filter ∈ s.subscriptions.filters ∧ filter ∉ p.filters.take i then 0x00 else 0x11
      else []) :
    Due v5 s takers (unsubscribe p)
      (some (unsubAck { packetId := p.packetId, reasonCodes := codes }))
  | pingReq : Due v5 s takers pingReq (some pingResp)
  | pubAck (a : Ack) : Due v5 s takers (pubAck a) none
  | pubComp (a : Ack) : Due v5 s takers (pubComp a) none
  | disconnect (tail : ReasonTail) : Due v5 s takers (disconnect tail) none

/-- Each filter of a SUBSCRIBE with the QoS that is asked for. -/
def Subscribe.requests (p : Subscribe) : List (Bytes × QoS) :=
  p.filters.map fun (filter, options) => (filter, options.qos)

/-! ### Outboxes -/

/-- The outbox has grown at its tail, and `frames` are the control packets that have come in. -/
def Session.Gains (s : Session) (frames : List Bytes) (s' : Session) : Prop :=
  ∃ items, s'.outbox.items = s.outbox.items ++ items ∧
    items.filterMap Outgoing.control? = frames

namespace Session

variable {s s' s'' : Session} {frames frames' : List Bytes}

theorem Gains.of_outbox (h : s'.outbox = s.outbox) : s.Gains [] s' :=
  ⟨[], by rw [h, List.append_nil], rfl⟩

theorem gains_append (s : Session) (item : Outgoing) :
    s.Gains item.control?.toList (s.append item) :=
  ⟨[item], rfl, by cases item <;> rfl⟩

theorem Gains.trans (h : s.Gains frames s') (h' : s'.Gains frames' s'') :
    s.Gains (frames ++ frames') s'' := by
  obtain ⟨items, hitems, rfl⟩ := h
  obtain ⟨items', hitems', rfl⟩ := h'
  exact ⟨items ++ items', by rw [hitems', hitems, List.append_assoc], List.filterMap_append⟩

end Session

/-- A PUBREC is for a QoS 2 message in flight, whichever stage it has come to. -/
theorem Window.isSome_received?_iff {w : Window} {id : UInt16} : (w.received? id).isSome = true ↔
    ∃ e ∈ w.entries, e.packetId = id ∧ e.publication.qos = .exactlyOnce := by
  have hhas (stage : Stage) : w.has id .exactlyOnce stage = true ↔
      ∃ e ∈ w.entries, (e.packetId = id ∧ e.publication.qos = .exactlyOnce) ∧ e.stage = stage := by
    simp only [has, List.any_eq_true, Bool.and_eq_true, decide_eq_true_eq]
  have hsome : (w.received? id).isSome = true ↔
      w.has id .exactlyOnce .released = true ∨ w.has id .exactlyOnce .sent = true := by
    rw [received?]
    cases w.has id .exactlyOnce .released <;> cases w.has id .exactlyOnce .sent <;> simp
  rw [hsome, hhas, hhas]
  constructor
  · rintro (⟨e, he, hflight, -⟩ | ⟨e, he, hflight, -⟩) <;> exact ⟨e, he, hflight⟩
  · rintro ⟨e, he, hflight⟩
    cases hstage : e.stage with
    | sent => exact .inr ⟨e, he, hflight, hstage⟩
    | released => exact .inl ⟨e, he, hflight, hstage⟩

namespace Broker

variable {b b' b'' : Broker} {home id : SessionId} {frames frames' : List Bytes}

/-- From `b` to `b'` the outboxes have grown at their tails. `frames` are the control packets that
have come into that of `home`; none have come into another. -/
def Posts (home : SessionId) (frames : List Bytes) (b b' : Broker) : Prop :=
  ∀ id, (b.session id).Gains (if id = home then frames else []) (b'.session id)

namespace Posts

theorem of_session_eq (h : ∀ id, b'.session id = b.session id) : Posts home [] b b' := by
  intro id
  rw [ite_self]
  exact .of_outbox (by rw [h])

theorem trans (h : Posts home frames b b') (h' : Posts home frames' b' b'') :
    Posts home (frames ++ frames') b b'' := by
  intro id
  have hboth := (h id).trans (h' id)
  by_cases hid : id = home
  · rw [if_pos hid] at hboth ⊢
    rwa [if_pos hid] at hboth
  · rw [if_neg hid] at hboth ⊢
    rwa [if_neg hid] at hboth

theorem then_quiet (h : Posts home frames b b') (h' : Posts home [] b' b'') :
    Posts home frames b b'' := by
  have hboth := h.trans h'
  rwa [List.append_nil] at hboth

theorem of_putSession (hid : home < b.sessions.length) {s : Session}
    (h : (b.session home).Gains frames s) : Posts home frames b (b.putSession home s) := by
  intro id
  by_cases heq : id = home
  · rw [if_pos heq, heq, putSession, session_updateSession hid]
    exact h
  · rw [if_neg heq, putSession, session_updateSession_of_ne (Ne.symm heq)]
    exact .of_outbox rfl

/-- Nothing but PUBLISHes comes into the outbox, whose ever it is. -/
theorem quiet_putSession {s : Session} (h : (b.session id).Gains [] s) :
    Posts home [] b (b.putSession id s) := by
  intro id'
  rw [ite_self]
  rcases Nat.lt_or_ge id b.sessions.length with hid | hid
  · by_cases heq : id = id'
    · rw [← heq, putSession, session_updateSession hid]
      exact h
    · rw [putSession, session_updateSession_of_ne heq]
      exact .of_outbox rfl
  · rw [putSession, updateSession_of_le hid]
    exact .of_outbox rfl

theorem of_closeOwner (b : Broker) (id : SessionId) (reason : CloseReason) :
    Posts home [] b (b.closeOwner id reason) := by
  unfold closeOwner
  split <;> exact .of_session_eq fun _ => rfl

theorem of_deliver (b : Broker) (id : SessionId) (m : Message) :
    Posts home [] b (b.deliver id m).1 := by
  rcases b.deliver_cases id m with ⟨-, heq⟩ | ⟨qos, -, heq⟩ | ⟨-, -, heq⟩
  · rw [heq]
    exact .of_session_eq fun _ => rfl
  · rw [heq]
    exact .quiet_putSession (Session.gains_append _ _)
  · rw [heq]
    dsimp only
    split
    · exact .of_closeOwner b id _
    · exact .of_session_eq fun _ => rfl

theorem of_dispatch (b : Broker) (m : Message) : Posts home [] b (b.dispatch m).1 := by
  unfold dispatch
  refine List.foldlRecOn (motive := fun x : Broker × Nat => Posts home [] b x.1) _ _
    (.of_session_eq fun _ => rfl) ?_
  exact fun x h entry _ => h.then_quiet (.of_deliver x.1 entry.2 m)

end Posts

variable {m : Message}

/-- How many sessions take a message is a matter of which of them would. -/
theorem dispatch_snd_congr (h : b.Filed) (h' : b'.Filed) (hlisted : b'.listed = b.listed)
    (haccepts : ∀ id qos, (b'.session id).Accepts m qos ↔ (b.session id).Accepts m qos) :
    (b'.dispatch m).2 = (b.dispatch m).2 := by
  obtain ⟨takers, htakers, hcount⟩ := (fansOut_listed h m).counted
  obtain ⟨takers', htakers', hcount'⟩ := (fansOut_listed h' m).counted
  have hsame : takers' = takers := Finset.ext fun id => by
    simp only [htakers, htakers', hlisted, haccepts]
  rw [hcount, hcount', hsame]

theorem dispatch_snd_putSession (h : b.Filed) (hid : id < b.sessions.length) {s : Session}
    (hclientId : s.clientId = (b.session id).clientId)
    (haccepts : ∀ qos, s.Accepts m qos ↔ (b.session id).Accepts m qos) :
    ((b.putSession id s).dispatch m).2 = (b.dispatch m).2 := by
  have hframes : Frames [id] b (b.putSession id s) :=
    .of_session [id] b id hclientId fun hnot => absurd (List.mem_singleton_self id) hnot
  refine dispatch_snd_congr h (hframes.filed h) rfl fun id' qos => ?_
  by_cases heq : id = id'
  · rw [← heq, putSession, session_updateSession hid]
    exact haccepts qos
  · rw [putSession, session_updateSession_of_ne heq]

end Broker

open Broker (Posts)

namespace Handled

variable {h h₁ h₂ : Handled} {p : Packet} {answer? : Option Packet}

def Succeeds (h : Handled) : Prop := ∀ error, h.verdict ≠ .failed error

theorem not_succeeds_fail (h : Handled) (error : SessionError) : ¬ (h.fail error).Succeeds :=
  fun hok => hok error rfl

/-- From `h` to `h'` the client gets the answer, in the bytes that are written for it, and there is
no other control packet for anyone. -/
def Answers (h : Handled) (answer? : Option Packet) (h' : Handled) : Prop :=
  ∃ frames, List.Forall₂ (fun p w => p.encode h.binding.link.level = .ok w) answer?.toList frames ∧
    Posts h.binding.session frames h.broker h'.broker

/-- Handling has come from `h` to `h'` without a word to the client. -/
structure Prepares (h h' : Handled) : Prop where
  binding : h'.binding = h.binding
  sessions : h'.broker.sessions.length = h.broker.sessions.length
  quiet : Posts h.binding.session [] h.broker h'.broker

namespace Prepares

theorem trans (h₁₂ : h.Prepares h₁) (h₂₃ : h₁.Prepares h₂) : h.Prepares h₂ where
  binding := h₂₃.binding.trans h₁₂.binding
  sessions := h₂₃.sessions.trans h₁₂.sessions
  quiet := h₁₂.quiet.then_quiet (h₁₂.binding ▸ h₂₃.quiet)

theorem isSeated (hprepares : h.Prepares h₁) (hseated : h.IsSeated) : h₁.IsSeated := by
  rw [IsSeated, hprepares.binding, hprepares.sessions]
  exact hseated

theorem answers_none (hprepares : h.Prepares h₁) : h.Answers none h₁ := ⟨[], .nil, hprepares.quiet⟩

end Prepares

theorem prepares_refl (h : Handled) : h.Prepares h := ⟨rfl, rfl, .of_session_eq fun _ => rfl⟩

theorem prepares_tell (h : Handled) (event : Event) : h.Prepares (h.tell event) :=
  ⟨rfl, rfl, .of_session_eq fun _ => rfl⟩

theorem prepares_putSession {s : Session} (houtbox : s.outbox = h.session.outbox) :
    h.Prepares (h.putSession s) :=
  ⟨rfl, Broker.length_updateSession .., .quiet_putSession (.of_outbox houtbox)⟩

theorem prepares_publish (h : Handled) (m : Message) : h.Prepares (h.publish m).1 :=
  ⟨rfl, (Broker.Frames.of_dispatch [] h.broker m).sessions, .of_dispatch h.broker m⟩

theorem answers_send (hseated : h.IsSeated) (hok : (h.send p).Succeeds) :
    h.Answers (some p) (h.send p) := by
  unfold send at hok ⊢
  cases hbytes : p.encode h.binding.link.level with
  | error cause =>
    rw [hbytes] at hok
    exact (not_succeeds_fail _ _ hok).elim
  | ok bytes =>
    rw [hbytes] at hok
    cases hs : h.session.enqueue? (.control bytes) with
    | none =>
      simp only [hs] at hok
      exact (not_succeeds_fail _ _ hok).elim
    | some s =>
      cases Session.enqueue?_eq_some hs
      simp only [hs]
      exact ⟨[bytes], .cons hbytes .nil, .of_putSession hseated (Session.gains_append _ _)⟩

theorem Prepares.answers_send (hprepares : h.Prepares h₁) (hseated : h.IsSeated)
    (hok : (h₁.send p).Succeeds) : h.Answers (some p) (h₁.send p) := by
  obtain ⟨frames, hframes, hposts⟩ := Handled.answers_send (hprepares.isSeated hseated) hok
  rw [hprepares.binding] at hframes hposts
  exact ⟨frames, hframes, hprepares.quiet.trans hposts⟩

/-! ### Packet by packet -/

/-- How many sessions take the message of a PUBLISH; none if it is another packet. -/
def takers (h : Handled) : Packet → Nat
  | .publish p => (h.broker.dispatch (Message.ofPublish p)).2
  | _ => 0

/-- What is due is what the client gets. -/
def Obliges (h : Handled) (p : Packet) (h' : Handled) : Prop :=
  ∃ answer?, p.Due h.v5 h.session (h.takers p) answer? ∧ h.Answers answer? h'

theorem obliges_onPublish (hfiled : h.broker.Filed) (hseated : h.IsSeated) (p : Publish)
    (hok : (h.onPublish p).Succeeds) : h.Obliges (.publish p) (h.onPublish p) := by
  have hrouted := prepares_publish h (Message.ofPublish p)
  unfold onPublish at hok ⊢
  by_cases hvalid : (!Topic.isValidName p.topic) = true
  · rw [if_pos hvalid] at hok
    exact (not_succeeds_fail _ _ hok).elim
  rw [if_neg hvalid] at hok ⊢
  dsimp only at hok ⊢
  cases hqos : p.qos with
  | atMostOnce => exact ⟨none, .atMostOnce hqos, hrouted.answers_none⟩
  | atLeastOnce =>
    rw [hqos] at hok
    cases hid : p.packetId with
    | none =>
      rw [hid] at hok
      exact (not_succeeds_fail _ _ hok).elim
    | some id =>
      rw [hid] at hok
      exact ⟨_, .atLeastOnce hqos hid, hrouted.answers_send hseated hok⟩
  | exactlyOnce =>
    rw [hqos] at hok
    cases hid : p.packetId with
    | none =>
      rw [hid] at hok
      exact (not_succeeds_fail _ _ hok).elim
    | some id =>
      rw [hid] at hok
      dsimp only at hok ⊢
      have hdue : (Packet.publish p).Due h.v5 h.session (h.takers (.publish p)) _ :=
        .exactlyOnce hqos hid
      by_cases hpending : h.session.isPending id = true
      · have hmem : id ∈ h.session.incoming := List.contains_iff_mem.1 hpending
        rw [if_pos hpending] at hok ⊢
        rw [if_neg fun hboth => hboth.2 hmem] at hdue
        exact ⟨_, hdue, answers_send hseated hok⟩
      rw [if_neg hpending] at hok ⊢
      by_cases hfull : h.binding.link.maxReceive ≤ h.session.incoming.length
      · rw [if_pos hfull] at hok
        exact (not_succeeds_fail _ _ hok).elim
      rw [if_neg hfull] at hok ⊢
      have hmem : id ∉ h.session.incoming := fun hmem => hpending (List.contains_iff_mem.2 hmem)
      have hbegin : (h.session.beginIncoming id).1 =
          { h.session with incoming := id :: h.session.incoming } :=
        congrArg Prod.fst (if_neg hpending)
      rw [hbegin] at hok ⊢
      have hnoted : h.Prepares (h.putSession { h.session with
          incoming := id :: h.session.incoming }) := prepares_putSession rfl
      have hcount : ((h.putSession { h.session with
          incoming := id :: h.session.incoming }).publish (Message.ofPublish p)).2 =
          h.takers (.publish p) :=
        Broker.dispatch_snd_putSession hfiled hseated rfl fun _ => Iff.rfl
      have hreason : deliveryReason (h.takers (.publish p)) =
          if h.takers (.publish p) = 0 ∧ id ∉ h.session.incoming then 0x10 else 0x00 := by
        simp only [deliveryReason, hmem, not_false_eq_true, and_true]
        rfl
      refine ⟨_, hdue, ?_⟩
      rw [← hreason, ← hcount]
      exact (hnoted.trans (prepares_publish _ _)).answers_send hseated hok

theorem answers_sendUnknown (hseated : h.IsSeated) (id : UInt16) (answer : Ack → Packet)
    (hok : (h.sendUnknown id answer).Succeeds) :
    h.Answers (if h.v5 then some (answer (Ack.withReason id 0x92)) else none)
      (h.sendUnknown id answer) := by
  unfold sendUnknown at hok ⊢
  split at hok
  · next hv5 =>
    rw [if_pos hv5, if_pos hv5]
    exact answers_send hseated hok
  · next hv5 =>
    rw [if_neg hv5, if_neg hv5]
    exact (prepares_refl h).answers_none

theorem obliges_onPubRec (hseated : h.IsSeated) (a : Ack) (hok : (h.onPubRec a).Succeeds) :
    h.Obliges (.pubRec a) (h.onPubRec a) := by
  unfold onPubRec at hok ⊢
  by_cases hrefused : (h.v5 && 0x80 ≤ a.reason) = true
  · obtain ⟨hv5, hreason⟩ := Bool.and_eq_true_iff.1 hrefused
    rw [if_pos hrefused]
    exact ⟨none, .refused hv5 (of_decide_eq_true hreason),
      (prepares_putSession (h.session.abandon_outbox _)).answers_none⟩
  rw [if_neg hrefused] at hok ⊢
  have hgood (hv5 : h.v5 = true) : a.reason < 0x80 :=
    UInt8.not_le.1 fun hreason =>
      hrefused (Bool.and_eq_true_iff.2 ⟨hv5, decide_eq_true hreason⟩)
  have hflight : (h.session.window.received? a.packetId).isSome = true ↔ _ :=
    Window.isSome_received?_iff
  rcases h.session.received_cases a.packetId with ⟨hnone, heq⟩ | ⟨window, hsome, heq⟩
  · rw [heq] at hok ⊢
    rw [hnone] at hflight
    exact ⟨_, .notInFlight hgood fun hmem => Bool.false_ne_true (hflight.2 hmem),
      answers_sendUnknown hseated _ _ hok⟩
  · rw [heq] at hok ⊢
    rw [hsome] at hflight
    have hput : h.Prepares (h.putSession { h.session with window }) := prepares_putSession rfl
    exact ⟨_, .received hgood (hflight.1 rfl), hput.answers_send hseated hok⟩

theorem obliges_onPubRel (hseated : h.IsSeated) (a : Ack)
    (hok : (h.onPubRel a.packetId).Succeeds) :
    h.Obliges (.pubRel a) (h.onPubRel a.packetId) := by
  have hpending : h.session.isPending a.packetId = true ↔ a.packetId ∈ h.session.incoming :=
    List.contains_iff_mem
  unfold onPubRel Session.releaseIncoming at hok ⊢
  by_cases hmem : a.packetId ∈ h.session.incoming
  · rw [if_pos (hpending.2 hmem)] at hok ⊢
    have hput : h.Prepares (h.putSession { h.session with
        incoming := h.session.incoming.filter (· != a.packetId) }) := prepares_putSession rfl
    exact ⟨_, .released hmem, hput.answers_send hseated hok⟩
  · rw [if_neg (mt hpending.1 hmem)] at hok ⊢
    exact ⟨_, .notPending hmem, answers_sendUnknown hseated _ _ hok⟩

/-- Whatever becomes of the subscriptions, the client gets the answer. -/
theorem answers_putSubscriptions (hseated : h.IsSeated) {subscriptions : Subscriptions}
    {event : Event}
    (hok : (((h.putSession { h.session with subscriptions }).tell event).send p).Succeeds) :
    h.Answers (some p) (((h.putSession { h.session with subscriptions }).tell event).send p) := by
  have hput : h.Prepares (h.putSession { h.session with subscriptions }) := prepares_putSession rfl
  exact (hput.trans (prepares_tell _ event)).answers_send hseated hok

theorem isAnsweredBy_grantCode (v5 : Bool) (filter : Bytes × SubscriptionOptions) :
    SubscriptionOptions.IsAnsweredBy v5 filter
      (grantCode v5 (Subscriptions.grant (filter.1, filter.2.qos))) := by
  have hcode : grantCode v5 (Subscriptions.grant (filter.1, filter.2.qos)) =
      if Topic.isValidFilter filter.1 then filter.2.qos.code
      else if v5 then 0x8F else 0x80 := by
    unfold Subscriptions.grant
    split <;> rfl
  rw [hcode]
  cases hvalid : Topic.isValidFilter filter.1 with
  | true =>
    have hlow : filter.2.qos.code < 0x80 := by cases filter.2.qos <;> decide
    exact ⟨iff_of_true hlow hvalid, fun _ => rfl, fun hnot => absurd (hvalid.symm.trans hnot) nofun⟩
  | false =>
    have hhigh : ¬ (if v5 then 0x8F else 0x80 : UInt8) < 0x80 := by cases v5 <;> decide
    exact ⟨iff_of_false hhigh (hvalid ▸ nofun), fun hyes => absurd (hvalid.symm.trans hyes) nofun,
      fun _ => rfl⟩

theorem obliges_onSubscribe (hseated : h.IsSeated) (p : Subscribe)
    (hok : (h.onSubscribe p).Succeeds) : h.Obliges (.subscribe p) (h.onSubscribe p) := by
  refine ⟨_, .subscribe ?_, answers_putSubscriptions hseated hok⟩
  rw [List.map_map, List.map_map, List.forall₂_map_right_iff]
  exact List.forall₂_same.2 fun filter _ => isAnsweredBy_grantCode h.v5 filter

theorem obliges_onUnsubscribe (hseated : h.IsSeated) (p : Unsubscribe)
    (hok : (h.onUnsubscribe p).Succeeds) : h.Obliges (.unsubscribe p) (h.onUnsubscribe p) := by
  refine ⟨_, .unsubscribe ?_, answers_putSubscriptions hseated hok⟩
  rw [Subscriptions.unsubscribe_found, List.mapIdx_eq_zipIdx_map, List.mapIdx_eq_zipIdx_map,
    List.map_map]
  simp only [Function.comp_def, decide_eq_true_eq]
  rfl

theorem answers_onDisconnect (h : Handled) (p : ReasonTail) (hok : (h.onDisconnect p).Succeeds) :
    h.Answers none (h.onDisconnect p) := by
  unfold onDisconnect at hok ⊢
  dsimp only at hok ⊢
  have hwill : h.Prepares (if !h.v5 || p.code = ReasonCode.normalDisconnection then
      h.putSession h.session.takeWill.1 else h) := by
    split
    · exact prepares_putSession rfl
    · exact prepares_refl h
  generalize (if !h.v5 || p.code = ReasonCode.normalDisconnection then
    h.putSession h.session.takeWill.1 else h) = h₁ at hok hwill ⊢
  have hleaves : Posts h.binding.session [] h.broker
      (h₁.broker.closeLease h₁.binding.lease .clientDisconnect) :=
    hwill.quiet.then_quiet (.of_session_eq fun _ => rfl)
  split
  · exact ⟨[], .nil, hleaves⟩
  · next heq =>
    rw [heq] at hok
    dsimp only at hok
    split
    · next hraised =>
      rw [if_pos hraised] at hok
      exact (not_succeeds_fail _ _ hok).elim
    · exact ⟨[], .nil, hleaves⟩

theorem obliges_onPacket (hfiled : h.broker.Filed) (hseated : h.IsSeated) (p : Packet)
    (hok : (h.onPacket p).Succeeds) : h.Obliges p (h.onPacket p) := by
  cases p with
  | publish p => exact obliges_onPublish hfiled hseated p hok
  | pubAck a =>
    exact ⟨none, .pubAck a, (prepares_putSession (h.session.ack_outbox _)).answers_none⟩
  | pubRec a => exact obliges_onPubRec hseated a hok
  | pubRel a => exact obliges_onPubRel hseated a hok
  | pubComp a =>
    exact ⟨none, .pubComp a, (prepares_putSession (h.session.complete_outbox _)).answers_none⟩
  | subscribe p => exact obliges_onSubscribe hseated p hok
  | unsubscribe p => exact obliges_onUnsubscribe hseated p hok
  | pingReq => exact ⟨_, .pingReq, answers_send hseated hok⟩
  | disconnect tail => exact ⟨none, .disconnect tail, answers_onDisconnect h tail hok⟩
  | connect | auth | connAck | subAck | unsubAck | pingResp =>
    exact (not_succeeds_fail _ _ hok).elim

/-! ### What a SUBSCRIBE leaves -/

theorem subscriptions_send (hseated : h.IsSeated) (p : Packet) :
    (h.send p).session.subscriptions = h.session.subscriptions := by
  unfold send
  split
  · rfl
  · split
    · next s hs =>
      rw [Session.enqueue?_eq_some hs, session_putSession hseated]
      rfl
    · rfl

theorem subscriptions_onSubscribe (hseated : h.IsSeated) (p : Subscribe) :
    (h.onSubscribe p).session.subscriptions = h.session.subscriptions.subscribe p.requests := by
  let held := { h.session with subscriptions := h.session.subscriptions.subscribe p.requests }
  have hput : h.Prepares (h.putSession held) := prepares_putSession rfl
  refine (subscriptions_send (h := (h.putSession held).tell _) (hput.isSeated hseated) _).trans ?_
  exact congrArg Session.subscriptions (session_putSession hseated held)

end Handled

end MqttBroker
